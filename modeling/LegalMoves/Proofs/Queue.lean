import LegalMoves.Cursor

set_option autoImplicit false

namespace LegalMoves
namespace Cursor

/-- What a request does to a list of moves: its answer, and the moves that are left. -/
def Request.serve (s : Snapshot) : Request → List Move → Answer × List Move
  | .hasNext, ms => (.truth (!ms.isEmpty), ms)
  | .next, [] => (.move (.error .cursorExhausted), [])
  | .next, m :: ms => (.move (.ok m), ms)
  | .advance, ms => (.moves ms.head?.toList, ms.tail)
  | .take count, ms => (.moves (ms.take count), ms.drop count)
  | .rest, ms => (.moves ms, [])
  | .probeWith test, ms => (.finding (scan (test s) [] ms).1, (scan (test s) [] ms).2)

def serveAll (s : Snapshot) : List Request → List Move → List Answer
  | [], _ => []
  | request :: script, ms => (request.serve s ms).1 :: serveAll s script (request.serve s ms).2

structure Holds (c : Cursor) (s : Snapshot) (ms : List Move) : Prop where
  snapshot : c.snapshot = s
  remaining : c.remaining = ms

variable {c : Cursor} {s : Snapshot} {ms : List Move}

theorem holds_eager (s : Snapshot) (ms : List Move) : (eager s ms).Holds s ms :=
  ⟨rfl, remaining_eager s ms⟩

theorem Holds.hasNext (h : c.Holds s ms) :
    c.hasNext.value.1 = !ms.isEmpty ∧ c.hasNext.value.2.Holds s ms := by
  constructor
  · rw [value_hasNext, h.remaining]
  · exact ⟨h.snapshot, (remaining_hasNext c).trans h.remaining⟩

theorem Holds.next? (h : c.Holds s ms) :
    c.next?.value.1 = ms.head? ∧ c.next?.value.2.Holds s ms.tail := by
  have hms : c.stream.toList = ms := h.remaining
  cases hp : c.stream.pull.value with
  | none =>
    have hnil : ms = [] := hms ▸ MoveStream.toList_of_pull_none hp
    subst hnil
    have hvalue : c.next?.value = (none, { c with stream := .stop }) := by
      simp [Cursor.next?, hp]
    rw [hvalue]
    exact ⟨rfl, h.snapshot, rfl⟩
  | some pulled =>
    obtain ⟨m, rest⟩ := pulled
    have hcons : ms = m :: rest.toList := hms ▸ MoveStream.toList_of_pull_some hp
    subst hcons
    have hvalue : c.next?.value = (some m, { c with stream := rest }) := by
      simp [Cursor.next?, hp]
    rw [hvalue]
    exact ⟨rfl, h.snapshot, rfl⟩

theorem Holds.take (h : c.Holds s ms) (count : Nat) :
    (Cursor.take count c).value.1 = ms.take count ∧
      (Cursor.take count c).value.2.Holds s (ms.drop count) := by
  -- What is taken after the first move comes from another cursor, which holds the tail.
  induction count generalizing c ms with
  | zero => exact ⟨rfl, h⟩
  | succ count ih =>
    obtain ⟨hhead, htail⟩ := h.next?
    rcases hn : c.next?.value with ⟨first, after⟩
    rw [hn] at hhead htail
    cases ms with
    | nil =>
      have hfirst : first = none := hhead
      subst hfirst
      have hvalue : (Cursor.take (count + 1) c).value = ([], after) := by
        simp [Cursor.take, hn]
      rw [hvalue]
      exact ⟨rfl, htail⟩
    | cons m ms =>
      have hfirst : first = some m := hhead
      subst hfirst
      obtain ⟨hmoves, hleft⟩ := ih htail
      have hvalue : (Cursor.take (count + 1) c).value =
          (m :: (Cursor.take count after).value.1, (Cursor.take count after).value.2) := by
        simp [Cursor.take, hn]
      rw [hvalue]
      exact ⟨congrArg (m :: ·) hmoves, hleft⟩

theorem Holds.rest (h : c.Holds s ms) :
    c.rest.value.1 = ms ∧ c.rest.value.2.Holds s [] := by
  have hms : c.stream.toList = ms := h.remaining
  exact ⟨by simp [Cursor.rest, hms], h.snapshot, rfl⟩

theorem Holds.probe (h : c.Holds s ms) (test : Test) :
    (c.probe test).value.1 = (scan (test s) [] ms).1 ∧
      (c.probe test).value.2.Holds s (scan (test s) [] ms).2 := by
  obtain ⟨rfl, hms⟩ := h
  obtain ⟨hfinding, hrest⟩ := search_eq_scan (test c.snapshot) [] c.stream
  rw [← hms]
  exact ⟨hfinding, rfl, hrest⟩

theorem Holds.answer (h : c.Holds s ms) (request : Request) :
    (c.answer request).value.1 = (request.serve s ms).1 ∧
      (c.answer request).value.2.Holds s (request.serve s ms).2 := by
  cases request with
  | hasNext =>
    obtain ⟨hvalue, hleft⟩ := h.hasNext
    exact ⟨congrArg Answer.truth hvalue, hleft⟩
  | next =>
    obtain ⟨hhead, htail⟩ := h.next?
    have hvalue : (c.answer .next).value = (.move (ms.head?.elim (.error .cursorExhausted) .ok),
        c.next?.value.2) := by
      simp [Cursor.answer, next_eq_map, hhead]
    rw [hvalue]
    cases ms with
    | nil => exact ⟨rfl, htail⟩
    | cons m ms => exact ⟨rfl, htail⟩
  | advance =>
    obtain ⟨hhead, htail⟩ := h.next?
    exact ⟨congrArg (fun first : Option Move => Answer.moves first.toList) hhead, htail⟩
  | take count =>
    obtain ⟨hmoves, hleft⟩ := h.take count
    exact ⟨congrArg Answer.moves hmoves, hleft⟩
  | rest =>
    obtain ⟨hmoves, hleft⟩ := h.rest
    exact ⟨congrArg Answer.moves hmoves, hleft⟩
  | probeWith test =>
    obtain ⟨hfinding, hleft⟩ := h.probe test
    exact ⟨congrArg Answer.finding hfinding, hleft⟩

theorem Holds.run (h : c.Holds s ms) (script : List Request) :
    (c.run script).value = serveAll s script ms := by
  induction script generalizing c ms with
  | nil => rfl
  | cons request script ih =>
    obtain ⟨hanswer, hleft⟩ := h.answer request
    have hothers := ih hleft
    simp [Cursor.run, serveAll, hanswer, hothers]

theorem serveAll_rest (s : Snapshot) (ms : List Move) : serveAll s [.rest] ms = [.moves ms] := rfl

end Cursor
end LegalMoves
