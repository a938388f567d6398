import LegalMoves.MoveStream
import LegalMoves.Snapshot.Basic

set_option autoImplicit false

/-!
Cursors: one pass over the moves for one snapshot. A cursor can look whether there is another move,
hand out moves from the front, and search for a move; it never goes back. What it still holds is a
stream, so a lazy cursor produces no move before it is asked for.
-/
namespace LegalMoves

/-- A pass over moves. A move that was looked at but not handed out is at the front of `stream`. -/
structure Cursor where
  snapshot : Snapshot
  isLazy : Bool
  stream : MoveStream

structure Finding where
  found : Bool
  seen : List Move
  deriving DecidableEq, Repr

namespace Cursor

def eager (s : Snapshot) (ms : List Move) : Cursor := ⟨s, false, .ofList ms⟩

def onDemand (s : Snapshot) (stream : MoveStream) : Cursor := ⟨s, true, stream⟩

def remaining (c : Cursor) : List Move := c.stream.toList

def hasNext (c : Cursor) : Traced (Bool × Cursor) := do
  let stream ← c.stream.peek
  pure (stream.isReady, { c with stream })

def next? (c : Cursor) : Traced (Option Move × Cursor) := do
  match ← c.stream.pull with
  | none => pure (none, { c with stream := .stop })
  | some (m, stream) => pure (some m, { c with stream })

def next (c : Cursor) : Traced (Except Error Move × Cursor) := do
  match ← c.next? with
  | (none, c) => pure (.error .cursorExhausted, c)
  | (some m, c) => pure (.ok m, c)

/-- At most the given number of moves. No more than that are asked for. -/
def take : Nat → Cursor → Traced (List Move × Cursor)
  | 0, c => pure ([], c)
  | n + 1, c => do
    match ← c.next? with
    | (none, c) => pure ([], c)
    | (some m, c) => do
      let (ms, c) ← take n c
      pure (m :: ms, c)

def rest (c : Cursor) : Traced (List Move × Cursor) := do
  let ms ← c.stream.drain
  pure (ms, { c with stream := .stop })

/-- A test of moves for a snapshot. It may remember the moves that it was shown before, the latest
first. -/
abbrev Test := Snapshot → List Move → Move → Bool

/-- Looks for a move in a stream and leaves what comes after it. The list holds the moves that were
looked at before, the latest first. -/
def search (wanted : List Move → Move → Bool) :
    List Move → MoveStream → Traced (Finding × MoveStream)
  | _, .stop => pure (⟨false, []⟩, .stop)
  | shown, .emit m rest =>
    if wanted shown m then pure (⟨true, [m]⟩, rest ())
    else do
      let (finding, stream) ← search wanted (m :: shown) (rest ())
      pure (⟨finding.found, m :: finding.seen⟩, stream)
  | shown, .note e rest => do
    Traced.note e
    search wanted shown (rest ())

def probe (test : Test) (c : Cursor) : Traced (Finding × Cursor) := do
  let (finding, stream) ← search (test c.snapshot) [] c.stream
  pure (finding, { c with stream })

def diagnostic (c : Cursor) : String :=
  "MovesCursor \x7b lazy: " ++ toString c.isLazy ++ ", .. \x7d"

inductive Request where
  | hasNext
  | next
  /-- The next move, if there is one; having none is no error. -/
  | advance
  | take (count : Nat)
  | rest
  | probeWith (test : Test)

def Request.probe (wanted : Snapshot → Move → Bool) : Request := .probeWith fun s _ m => wanted s m

inductive Answer where
  | truth (value : Bool)
  | move (result : Except Error Move)
  | moves (list : List Move)
  | finding (result : Finding)

def answer : Request → Cursor → Traced (Answer × Cursor)
  | .hasNext, c => do
    let (value, c) ← c.hasNext
    pure (.truth value, c)
  | .next, c => do
    let (result, c) ← c.next
    pure (.move result, c)
  | .advance, c => do
    let (result, c) ← c.next?
    pure (.moves result.toList, c)
  | .take count, c => do
    let (list, c) ← take count c
    pure (.moves list, c)
  | .rest, c => do
    let (list, c) ← c.rest
    pure (.moves list, c)
  | .probeWith test, c => do
    let (result, c) ← c.probe test
    pure (.finding result, c)

def run : List Request → Cursor → Traced (List Answer)
  | [], _ => pure []
  | request :: script, c => do
    let (answer, c) ← c.answer request
    let answers ← run script c
    pure (answer :: answers)

def after : List Request → Cursor → Cursor
  | [], c => c
  | request :: script, c => after script (c.answer request).value.2

theorem events_run_append (script later : List Request) (c : Cursor) :
    (c.run (script ++ later)).events =
      (c.run script).events ++ ((c.after script).run later).events := by
  induction script generalizing c with
  | nil => rfl
  | cons request script ih => simp [run, after, ih]

@[simp] theorem remaining_eager (s : Snapshot) (ms : List Move) : (eager s ms).remaining = ms := by
  simp [eager, remaining]

theorem next_eq_map (c : Cursor) :
    c.next = (fun r => (r.1.elim (.error .cursorExhausted) .ok, r.2)) <$> c.next? := by
  rcases hnext : c.next?.value with ⟨_ | m, later⟩
  · ext1 <;> simp [next, hnext]
  · ext1 <;> simp [next, hnext]

theorem value_hasNext (c : Cursor) : c.hasNext.value.1 = !c.remaining.isEmpty := by
  simp [hasNext, remaining, MoveStream.isReady_peek]

theorem remaining_hasNext (c : Cursor) : c.hasNext.value.2.remaining = c.remaining := by
  simp [hasNext, remaining]

/-- A search through a plain list: what it finds, and the moves that it does not look at. -/
def scan (wanted : List Move → Move → Bool) : List Move → List Move → Finding × List Move
  | _, [] => (⟨false, []⟩, [])
  | shown, m :: ms =>
    if wanted shown m then (⟨true, [m]⟩, ms)
    else
      let (finding, rest) := scan wanted (m :: shown) ms
      (⟨finding.found, m :: finding.seen⟩, rest)

theorem search_eq_scan (wanted : List Move → Move → Bool) (shown : List Move)
    (stream : MoveStream) :
    (search wanted shown stream).value.1 = (scan wanted shown stream.toList).1 ∧
      (search wanted shown stream).value.2.toList = (scan wanted shown stream.toList).2 := by
  induction stream generalizing shown with
  | stop => exact ⟨rfl, rfl⟩
  | emit m rest ih =>
    obtain ⟨hfinding, hrest⟩ := ih () (m :: shown)
    by_cases h : wanted shown m = true
    · simp [search, scan, MoveStream.toList, h]
    · simp [search, scan, MoveStream.toList, h, hfinding, hrest]
  | note e rest ih =>
    obtain ⟨hfinding, hrest⟩ := ih () shown
    exact ⟨hfinding, hrest⟩

theorem scan_of_plain (wanted : Move → Bool) (shown ms : List Move) :
    scan (fun _ => wanted) shown ms =
      (⟨ms.any wanted, ms.take (ms.findIdx wanted + 1)⟩, ms.drop (ms.findIdx wanted + 1)) := by
  induction ms generalizing shown with
  | nil => rfl
  | cons m ms ih =>
    by_cases h : wanted m = true
    · simp [scan, h, List.findIdx_cons]
    · have hm : wanted m = false := Bool.eq_false_iff.mpr h
      simp [scan, hm, ih, List.findIdx_cons]

end Cursor
end LegalMoves
