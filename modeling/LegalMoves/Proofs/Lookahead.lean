import LegalMoves.Cursor

set_option autoImplicit false

/-!
Cursors that keep the move they looked at apart from its source. A buffer has looked at nothing yet,
holds the next move, or has met the end of its source. With the move that it holds put back in front
of the source it is a plain cursor: both answer every script alike and meet the same events.
-/
namespace LegalMoves

theorem MoveStream.peek_eq_pull (s : MoveStream) :
    s.peek = (fun pulled => match pulled with
      | none => stop
      | some (m, rest) => emit m fun _ => rest) <$> s.pull := by
  induction s with
  | stop => rfl
  | emit m rest ih => rfl
  | note e rest ih => simp [peek, pull, ih]

/-- A source of moves behind room for one move. -/
inductive Buffer where
  | vacant (source : MoveStream)
  | holding (m : Move) (source : MoveStream)
  /-- There was no move when it looked. -/
  | ended

namespace Buffer

open Cursor (Request Answer)

def hasNext : Buffer → Traced (Bool × Buffer)
  | vacant source => do
    match ← source.pull with
    | none => pure (false, ended)
    | some (m, source) => pure (true, holding m source)
  | holding m source => pure (true, holding m source)
  | ended => pure (false, ended)

def next? : Buffer → Traced (Option Move × Buffer)
  | vacant source => do
    match ← source.pull with
    | none => pure (none, vacant .stop)
    | some (m, source) => pure (some m, vacant source)
  | holding m source => pure (some m, vacant source)
  -- That a look met the end is forgotten, but the source stays at its end.
  | ended => pure (none, vacant .stop)

def take : Nat → Buffer → Traced (List Move × Buffer)
  | 0, b => pure ([], b)
  | n + 1, b => do
    match ← b.next? with
    | (none, b) => pure ([], b)
    | (some m, b) => do
      let (ms, b) ← take n b
      pure (m :: ms, b)

def rest : Buffer → Traced (List Move × Buffer)
  | vacant source => do
    let ms ← source.drain
    pure (ms, vacant .stop)
  | holding m source => do
    let ms ← source.drain
    pure (m :: ms, vacant .stop)
  | ended => pure ([], vacant .stop)

/-- A search meets the move that is held before it draws any other. -/
def search (wanted : List Move → Move → Bool) : Buffer → Traced (Finding × Buffer)
  | vacant source => do
    let (finding, source) ← Cursor.search wanted [] source
    pure (finding, vacant source)
  | holding m source =>
    if wanted [] m then pure (⟨true, [m]⟩, vacant source)
    else do
      let (finding, source) ← Cursor.search wanted [m] source
      pure (⟨finding.found, m :: finding.seen⟩, vacant source)
  | ended => pure (⟨false, []⟩, vacant .stop)

def answer (s : Snapshot) : Request → Buffer → Traced (Answer × Buffer)
  | .hasNext, b => do
    let (value, b) ← b.hasNext
    pure (.truth value, b)
  | .next, b => do
    let (result, b) ← b.next?
    pure (.move (result.elim (.error .cursorExhausted) .ok), b)
  | .advance, b => do
    let (result, b) ← b.next?
    pure (.moves result.toList, b)
  | .take count, b => do
    let (list, b) ← take count b
    pure (.moves list, b)
  | .rest, b => do
    let (list, b) ← b.rest
    pure (.moves list, b)
  | .probeWith test, b => do
    let (result, b) ← b.search (test s)
    pure (.finding result, b)

def run (s : Snapshot) : List Request → Buffer → Traced (List Answer)
  | [], _ => pure []
  | request :: script, b => do
    let (answer, b) ← b.answer s request
    let answers ← run s script b
    pure (answer :: answers)

def after (s : Snapshot) : List Request → Buffer → Buffer
  | [], b => b
  | request :: script, b => after s script (b.answer s request).value.2

def stream : Buffer → MoveStream
  | vacant source => source
  | holding m source => .emit m fun _ => source
  | ended => .stop

def cursor (s : Snapshot) (b : Buffer) : Cursor := .onDemand s b.stream

variable (s : Snapshot) (b : Buffer)

theorem cursor_hasNext :
    (b.cursor s).hasNext = (fun r => (r.1, r.2.cursor s)) <$> b.hasNext := by
  cases b with
  | vacant source =>
    have hpeek := source.peek_eq_pull
    cases hpull : source.pull.value with
    | none =>
      ext1 <;>
        simp [Cursor.hasNext, hasNext, cursor, stream, Cursor.onDemand, hpeek, hpull,
          MoveStream.isReady]
    | some pulled =>
      ext1 <;>
        simp [Cursor.hasNext, hasNext, cursor, stream, Cursor.onDemand, hpeek, hpull,
          MoveStream.isReady]
  | holding m source => rfl
  | ended => rfl

theorem cursor_next? :
    (b.cursor s).next? = (fun r => (r.1, r.2.cursor s)) <$> b.next? := by
  cases b with
  | vacant source =>
    cases hpull : source.pull.value with
    | none => ext1 <;> simp [Cursor.next?, next?, cursor, stream, Cursor.onDemand, hpull]
    | some pulled => ext1 <;> simp [Cursor.next?, next?, cursor, stream, Cursor.onDemand, hpull]
  | holding m source => rfl
  | ended => rfl

theorem cursor_take (count : Nat) :
    Cursor.take count (b.cursor s) = (fun r => (r.1, r.2.cursor s)) <$> take count b := by
  induction count generalizing b with
  | zero => rfl
  | succ count ih =>
    rcases hnext : b.next?.value with ⟨_ | m, later⟩
    · ext1 <;> simp [Cursor.take, take, cursor_next?, hnext]
    · ext1 <;> simp [Cursor.take, take, cursor_next?, hnext, ih later]

theorem cursor_rest :
    (b.cursor s).rest = (fun r => (r.1, r.2.cursor s)) <$> b.rest := by
  cases b with
  | vacant source => simp [Cursor.rest, rest, cursor, stream, Cursor.onDemand]
  | holding m source =>
    simp [Cursor.rest, rest, cursor, stream, Cursor.onDemand, MoveStream.drain]
  | ended => rfl

theorem cursor_search (test : Cursor.Test) :
    (b.cursor s).probe test = (fun r => (r.1, r.2.cursor s)) <$> b.search (test s) := by
  cases b with
  | vacant source => simp [Cursor.probe, search, cursor, stream, Cursor.onDemand]
  | holding m source =>
    by_cases h : test s [] m = true
    · simp [Cursor.probe, Cursor.search, search, cursor, stream, Cursor.onDemand, h]
    · simp [Cursor.probe, Cursor.search, search, cursor, stream, Cursor.onDemand, h]
  | ended => rfl

theorem cursor_answer (request : Request) :
    (b.cursor s).answer request = (fun r => (r.1, r.2.cursor s)) <$> b.answer s request := by
  cases request with
  | hasNext => simp [Cursor.answer, answer, cursor_hasNext]
  | next => simp [Cursor.answer, Cursor.next_eq_map, answer, cursor_next?]
  | advance => simp [Cursor.answer, answer, cursor_next?]
  | take count => simp [Cursor.answer, answer, cursor_take]
  | rest => simp [Cursor.answer, answer, cursor_rest]
  | probeWith test => simp [Cursor.answer, answer, cursor_search]

/-- Keeping the move apart makes no difference to any script. -/
theorem cursor_run (script : List Request) : (b.cursor s).run script = b.run s script := by
  induction script generalizing b with
  | nil => rfl
  | cons request script ih => ext1 <;> simp [Cursor.run, run, cursor_answer, ih]

theorem cursor_after (script : List Request) :
    (b.cursor s).after script = (b.after s script).cursor s := by
  induction script generalizing b with
  | nil => rfl
  | cons request script ih => simp [Cursor.after, after, cursor_answer, ih]

end Buffer
end LegalMoves
