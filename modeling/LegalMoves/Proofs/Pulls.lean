import LegalMoves.Proofs.Front
import LegalMoves.Proofs.Lookahead
import LegalMoves.Proofs.Removal

set_option autoImplicit false

namespace LegalMoves
namespace MoveStream

theorem eventList_counted_ofList (id : String) (ms : List Move) :
    ((ofList ms).counted id).eventList = List.replicate ms.length (.drawn id) := by
  induction ms with
  | nil => rfl
  | cons m ms ih => exact congrArg (Event.drawn id :: ·) ih

theorem events_pull_of_none {s : MoveStream} (h : s.pull.value = none) :
    s.pull.events = s.eventList := by
  induction s with
  | stop => rfl
  | emit m rest ih => simp [pull] at h
  | note e rest ih => exact congrArg (e :: ·) (ih () h)

theorem events_pull_of_some {s rest : MoveStream} {m : Move} (h : s.pull.value = some (m, rest)) :
    s.pull.events ++ rest.eventList = s.eventList := by
  induction s with
  | stop => simp [pull] at h
  | emit first others ih =>
    have hpair : first = m ∧ others () = rest := by simpa [pull] using h
    obtain ⟨rfl, rfl⟩ := hpair
    rfl
  | note e others ih => exact congrArg (e :: ·) (ih () h)

end MoveStream

namespace Cursor

variable (c : Cursor)

/-! No event of a source is lost or met twice. -/

theorem events_hasNext :
    c.hasNext.events ++ c.hasNext.value.2.stream.eventList = c.stream.eventList := by
  have hpeek := congrArg MoveStream.eventList c.stream.notes_peek
  simpa [hasNext] using hpeek

theorem events_next? :
    c.next?.events ++ c.next?.value.2.stream.eventList = c.stream.eventList := by
  cases hpull : c.stream.pull.value with
  | none =>
    have hevents := MoveStream.events_pull_of_none hpull
    simp [next?, hpull, hevents, MoveStream.eventList]
  | some pulled =>
    have hevents := MoveStream.events_pull_of_some hpull
    simpa [next?, hpull] using hevents

theorem events_take (count : Nat) :
    (take count c).events ++ (take count c).value.2.stream.eventList = c.stream.eventList := by
  induction count generalizing c with
  | zero => rfl
  | succ count ih =>
    have hfirst := events_next? c
    rcases hnext : c.next?.value with ⟨_ | m, later⟩
    · rw [hnext] at hfirst
      simpa [take, hnext] using hfirst
    · rw [hnext, ← ih later] at hfirst
      simpa [take, hnext] using hfirst

theorem events_rest : c.rest.events ++ c.rest.value.2.stream.eventList = c.stream.eventList := by
  simp [rest, MoveStream.eventList]

theorem events_search (wanted : List Move → Move → Bool) (shown : List Move) (s : MoveStream) :
    (search wanted shown s).events ++ (search wanted shown s).value.2.eventList =
      s.eventList := by
  induction s generalizing shown with
  | stop => rfl
  | emit m rest ih =>
    by_cases h : wanted shown m = true
    · simp [search, h, MoveStream.eventList]
    · simpa [search, h, MoveStream.eventList] using ih () (m :: shown)
  | note e rest ih => exact congrArg (e :: ·) (ih () shown)

theorem events_answer (request : Request) :
    (c.answer request).events ++ (c.answer request).value.2.stream.eventList =
      c.stream.eventList := by
  cases request with
  | hasNext => simpa [answer] using c.events_hasNext
  | next => simpa [answer, next_eq_map] using c.events_next?
  | advance => simpa [answer] using c.events_next?
  | take count => simpa [answer] using c.events_take count
  | rest => simpa [answer] using c.events_rest
  | probeWith test =>
    simpa [answer, probe] using events_search (test c.snapshot) [] c.stream

theorem events_run (script : List Request) :
    (c.run script).events ++ (c.after script).stream.eventList = c.stream.eventList := by
  induction script generalizing c with
  | nil => rfl
  | cons request script ih =>
    have hothers := ih (c.answer request).value.2
    rw [← events_answer c request, ← hothers]
    simp [run, after]

def Answer.ahead (before : Bool) : Answer → Bool
  | .truth value => before || value
  | answer => before && answer.removed.isEmpty

/-- There was another move by the answers since the last one that removed any. -/
def LooksAhead (answers : List Answer) : Prop :=
  ∃ earlier later, answers = earlier ++ .truth true :: later ∧ removedBy later = []

theorem Answer.ahead_iff {before : Bool} {a : Answer} :
    a.ahead before = true ↔ a = .truth true ∨ before = true ∧ a.removed = [] := by
  cases a with
  | truth value => cases value <;> cases before <;> simp [ahead, removed]
  | move result => simp [ahead]
  | moves list => simp [ahead]
  | finding x => simp [ahead]

theorem looksAhead_cons {a : Answer} {answers : List Answer} :
    LooksAhead (a :: answers) ↔
      a = .truth true ∧ removedBy answers = [] ∨ LooksAhead answers := by
  constructor
  · rintro ⟨earlier, later, hsplit, hnone⟩
    cases earlier with
    | nil =>
      obtain ⟨rfl, rfl⟩ := List.cons.inj hsplit
      exact .inl ⟨rfl, hnone⟩
    | cons first earlier => exact .inr ⟨earlier, later, (List.cons.inj hsplit).2, hnone⟩
  · rintro (⟨rfl, hnone⟩ | ⟨earlier, later, rfl, hnone⟩)
    · exact ⟨[], answers, rfl, hnone⟩
    · exact ⟨a :: earlier, later, rfl, hnone⟩

theorem foldl_ahead_iff {before : Bool} {answers : List Answer} :
    answers.foldl Answer.ahead before = true ↔
      before = true ∧ removedBy answers = [] ∨ LooksAhead answers := by
  induction answers generalizing before with
  | nil => simp [LooksAhead, removedBy]
  | cons a answers ih =>
    have hremoved : removedBy (a :: answers) = a.removed ++ removedBy answers := rfl
    rw [List.foldl_cons, ih, Answer.ahead_iff, looksAhead_cons, hremoved, List.append_eq_nil_iff]
    grind

end Cursor

namespace Buffer

open Cursor (Request Answer scan serveAll leave removedBy)

/-- A buffer over a source that counts, with the moves that are left and whether the first of them
was drawn already. -/
inductive Draws (id : String) : Buffer → List Move → Bool → Prop where
  | vacant (left : List Move) : Draws id (.vacant ((MoveStream.ofList left).counted id)) left false
  | holding (m : Move) (left : List Move) :
    Draws id (.holding m ((MoveStream.ofList left).counted id)) (m :: left) true
  | ended : Draws id .ended [] false

variable {id : String} {b : Buffer} {left : List Move} {ahead : Bool}

theorem Draws.eventList (h : b.Draws id left ahead) :
    b.stream.eventList = List.replicate (left.length - ahead.toNat) (.drawn id) := by
  cases h with
  | vacant => exact MoveStream.eventList_counted_ofList id left
  | holding m left => exact MoveStream.eventList_counted_ofList id left
  | ended => rfl

theorem Draws.ahead_le (h : b.Draws id left ahead) : ahead.toNat ≤ left.length := by
  cases h <;> simp

theorem Draws.ahead_of_nil (h : b.Draws id [] ahead) : ahead = false := by
  cases h <;> rfl

theorem Draws.hasNext (h : b.Draws id left ahead) :
    b.hasNext.value.2.Draws id left (ahead || !left.isEmpty) := by
  cases h with
  | vacant =>
    cases left with
    | nil => exact .ended
    | cons m left => exact .holding m left
  | holding m left => exact .holding m left
  | ended => exact .ended

theorem Draws.next? (h : b.Draws id left ahead) :
    b.next?.value.1 = left.head? ∧ b.next?.value.2.Draws id left.tail false := by
  cases h with
  | vacant =>
    cases left with
    | nil => exact ⟨rfl, .vacant []⟩
    | cons m left => exact ⟨rfl, .vacant left⟩
  | holding m left => exact ⟨rfl, .vacant left⟩
  | ended => exact ⟨rfl, .vacant []⟩

theorem Draws.take (h : b.Draws id left ahead) (count : Nat) :
    (Buffer.take count b).value.2.Draws id (left.drop count)
      (ahead && (left.take count).isEmpty) := by
  induction count generalizing b left ahead with
  | zero => simpa [Buffer.take] using h
  | succ count ih =>
    obtain ⟨hhead, htail⟩ := h.next?
    rcases hnext : b.next?.value with ⟨first, later⟩
    rw [hnext] at hhead htail
    cases left with
    | nil =>
      obtain rfl : first = none := hhead
      obtain rfl := h.ahead_of_nil
      simpa [Buffer.take, hnext] using htail
    | cons m left =>
      obtain rfl : first = some m := hhead
      simpa [Buffer.take, hnext] using ih htail

theorem Draws.rest (h : b.Draws id left ahead) :
    b.rest.value.2.Draws id [] (ahead && left.isEmpty) := by
  cases h with
  | vacant => exact .vacant []
  | holding m left => exact .vacant []
  | ended => exact .vacant []

theorem search_counted (wanted : List Move → Move → Bool) (shown ms : List Move) :
    (Cursor.search wanted shown ((MoveStream.ofList ms).counted id)).value.2 =
      (MoveStream.ofList (scan wanted shown ms).2).counted id := by
  induction ms generalizing shown with
  | nil => rfl
  | cons m ms ih =>
    by_cases h : wanted shown m = true
    · simp [MoveStream.ofList, MoveStream.counted, Cursor.search, scan, h]
    · simp [MoveStream.ofList, MoveStream.counted, Cursor.search, scan, h, ih]

theorem Draws.search (h : b.Draws id left ahead) (wanted : List Move → Move → Bool) :
    (b.search wanted).value.2.Draws id (scan wanted [] left).2
      (ahead && (scan wanted [] left).1.seen.isEmpty) := by
  cases h with
  | vacant => simpa [Buffer.search, search_counted] using .vacant _
  | holding m left =>
    by_cases hm : wanted [] m = true
    · simpa [Buffer.search, scan, hm] using .vacant left
    · simpa [Buffer.search, scan, hm, search_counted] using .vacant _
  | ended => exact .vacant []

theorem Draws.answer (h : b.Draws id left ahead) (s : Snapshot) (request : Request) :
    (b.answer s request).value.2.Draws id (request.serve s left).2
      ((request.serve s left).1.ahead ahead) := by
  cases request with
  | hasNext => exact h.hasNext
  | next =>
    have htail := h.next?.2
    cases left with
    | nil =>
      obtain rfl := h.ahead_of_nil
      exact htail
    | cons m left => simpa [Buffer.answer, Request.serve, Answer.ahead, Answer.removed] using htail
  | advance =>
    have htail := h.next?.2
    cases left with
    | nil =>
      obtain rfl := h.ahead_of_nil
      exact htail
    | cons m left => simpa [Buffer.answer, Request.serve, Answer.ahead, Answer.removed] using htail
  | take count => exact h.take count
  | rest => exact h.rest
  | probeWith test => exact h.search (test s)

theorem Draws.after (h : b.Draws id left ahead) (s : Snapshot) (script : List Request) :
    (b.after s script).Draws id (leave s script left)
      ((serveAll s script left).foldl Answer.ahead ahead) := by
  induction script generalizing b left ahead with
  | nil => exact h
  | cons request script ih => exact ih (h.answer s request)

end Buffer

namespace Cursor

def counting (id : String) (s : Snapshot) (ms : List Move) : Cursor :=
  .onDemand s ((MoveStream.ofList ms).counted id)

/-- At any point of a script a source was asked for the moves that are gone, and for one more while
a move that was looked at is still there. -/
structure DrawsAsNeeded (id : String) (c : Cursor) : Prop where
  level : ∀ script, ¬ LooksAhead (c.run script).value →
    (c.run script).events = List.replicate (removedBy (c.run script).value).length (.drawn id)
  ahead : ∀ script, LooksAhead (c.run script).value →
    (c.run script).events =
      List.replicate ((removedBy (c.run script).value).length + 1) (.drawn id)
  /-- A longer script goes on from there. -/
  goesOn : ∀ script later, (c.run script).events <+: (c.run (script ++ later)).events
  takeNone : ∀ script later,
    (c.run (script ++ .take 0 :: later)).events = (c.run (script ++ later)).events

variable (id : String) (s : Snapshot) (ms : List Move)

theorem holds_onDemand (s : Snapshot) (source : MoveStream) :
    (onDemand s source).Holds s source.toList := ⟨rfl, rfl⟩

theorem holds_counting : (counting id s ms).Holds s ms := by
  have hsource := holds_onDemand s ((MoveStream.ofList ms).counted id)
  rwa [MoveStream.toList_counted, MoveStream.toList_ofList] at hsource

theorem events_run_counting (script : List Request) :
    ((counting id s ms).run script).events =
      List.replicate ((removedBy (serveAll s script ms)).length +
        ((serveAll s script ms).foldl Answer.ahead false).toNat) (.drawn id) := by
  have hstart : (Buffer.vacant ((MoveStream.ofList ms).counted id)).Draws id ms false := .vacant ms
  have hdraws := hstart.after s script
  have hlater : ((counting id s ms).after script).stream.eventList =
      List.replicate ((leave s script ms).length -
        ((serveAll s script ms).foldl Answer.ahead false).toNat) (.drawn id) :=
    (congrArg (·.stream.eventList) (Buffer.cursor_after s _ script)).trans hdraws.eventList
  have hall : ((counting id s ms).run script).events ++
      ((counting id s ms).after script).stream.eventList =
        List.replicate ms.length (.drawn id) :=
    (events_run _ script).trans (MoveStream.eventList_counted_ofList id ms)
  rw [hlater, List.append_eq_replicate_iff, List.length_replicate] at hall
  obtain ⟨hlength, hevents, -⟩ := hall
  have hmoves : (removedBy (serveAll s script ms)).length + (leave s script ms).length =
      ms.length := by
    rw [← List.length_append, removedBy_serveAll]
  have hahead := hdraws.ahead_le
  rw [hevents]
  congr 1
  omega

theorem drawsAsNeeded_counting : DrawsAsNeeded id (counting id s ms) := by
  refine ⟨fun script hlevel => ?level, fun script hahead => ?ahead, fun script later => ?goesOn,
    fun script later => ?takeNone⟩
  case level =>
    rw [(holds_counting id s ms).run] at hlevel ⊢
    have hfold : (serveAll s script ms).foldl Answer.ahead false = false := by
      rw [← Bool.not_eq_true, foldl_ahead_iff]
      simpa using hlevel
    rw [events_run_counting, hfold]
    rfl
  case ahead =>
    rw [(holds_counting id s ms).run] at hahead ⊢
    have hfold : (serveAll s script ms).foldl Answer.ahead false = true :=
      foldl_ahead_iff.mpr (.inr hahead)
    rw [events_run_counting, hfold]
    rfl
  case goesOn =>
    rw [events_run_append]
    exact List.prefix_append _ _
  case takeNone =>
    have hnone : ∀ c : Cursor, (c.run (.take 0 :: later)).events = (c.run later).events := by
      intro c
      simp [Cursor.run, Cursor.answer, Cursor.take]
    rw [events_run_append, events_run_append, hnone]

/-- A cursor answers every script from the list of its moves, whether it was given the list or a
source of moves. It has drawn from its source the moves that are gone, and one more exactly while a
move that it looked at is still there. A cursor that keeps this move apart, in a buffer, answers
alike and draws alike. -/
theorem run_from_list (id : String) (s : Snapshot) (ms : List Move) :
    (eager s ms).AnswersFrom s ms ∧ (counting id s ms).AnswersFrom s ms ∧
      DrawsAsNeeded id (counting id s ms) ∧
      ∀ source : MoveStream, (onDemand s source).AnswersFrom s source.toList ∧
        ∀ script, (Buffer.vacant source).run s script = (onDemand s source).run script := by
  refine ⟨(holds_eager s ms).answersFrom, (holds_counting id s ms).answersFrom,
    drawsAsNeeded_counting id s ms, fun source => ⟨?_, fun script => ?_⟩⟩
  · exact (holds_onDemand s source).answersFrom
  · exact ((Buffer.vacant source).cursor_run s script).symm

/-- A second look draws nothing, nor does the move that was looked at. -/
example (s : Snapshot) (m n : Move) :
    ((counting "source" s [m, n]).run [.hasNext, .hasNext, .take 0, .next, .hasNext]).events =
      [.drawn "source", .drawn "source"] := rfl

end Cursor
end LegalMoves
