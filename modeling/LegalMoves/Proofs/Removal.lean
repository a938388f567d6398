import LegalMoves.Proofs.Queue

set_option autoImplicit false

namespace LegalMoves

/-- A test that is shown a list of moves from the front wants none of them. It remembers the moves
that it was shown before, the latest first. -/
def PassesOver (wanted : List Move → Move → Bool) (ms : List Move) : Prop :=
  ∀ front m, front ++ [m] <+: ms → wanted front.reverse m = false

/-- A search through a list showed a test the moves up to the first wanted one, or all moves if none
is wanted. -/
structure Finding.EndsAtFirst (x : Finding) (wanted : List Move → Move → Bool) (ms : List Move) :
    Prop where
  hit : x.found = true → ∃ passed m, x.seen = passed ++ [m] ∧ x.seen <+: ms ∧
    PassesOver wanted passed ∧ wanted passed.reverse m = true
  missed : x.found = false → x.seen = ms ∧ PassesOver wanted ms

theorem passesOver_nil (wanted : List Move → Move → Bool) : PassesOver wanted [] := by
  intro front m h
  simp at h

theorem passesOver_cons {wanted : List Move → Move → Bool} {m : Move} {ms : List Move}
    (hm : wanted [] m = false) (hms : PassesOver (fun front => wanted (front ++ [m])) ms) :
    PassesOver wanted (m :: ms) := by
  intro front last h
  cases front with
  | nil =>
    obtain ⟨rfl, -⟩ := List.cons_prefix_cons.mp h
    exact hm
  | cons first front =>
    obtain ⟨rfl, hfront⟩ := List.cons_prefix_cons.mp h
    rw [List.reverse_cons]
    exact hms front last hfront

theorem Finding.EndsAtFirst.cons {x : Finding} {wanted : List Move → Move → Bool} {m : Move}
    {ms : List Move} (hm : wanted [] m = false)
    (h : x.EndsAtFirst (fun front => wanted (front ++ [m])) ms) :
    Finding.EndsAtFirst ⟨x.found, m :: x.seen⟩ wanted (m :: ms) := by
  constructor
  · intro hfound
    obtain ⟨passed, last, hseen, hprefix, hpassed, hlast⟩ := h.hit hfound
    refine ⟨m :: passed, last, congrArg (m :: ·) hseen, ?_, passesOver_cons hm hpassed, ?_⟩
    · exact List.cons_prefix_cons.mpr ⟨rfl, hprefix⟩
    · rw [List.reverse_cons]
      exact hlast
  · intro hfound
    obtain ⟨hseen, hpassed⟩ := h.missed hfound
    exact ⟨congrArg (m :: ·) hseen, passesOver_cons hm hpassed⟩

namespace Cursor

variable {s : Snapshot} {ms : List Move}

theorem scan_endsAtFirst (wanted : List Move → Move → Bool) (shown ms : List Move) :
    (scan wanted shown ms).1.EndsAtFirst (fun front => wanted (front ++ shown)) ms := by
  induction ms generalizing shown with
  | nil => exact ⟨fun h => by simp [scan] at h, fun _ => ⟨rfl, passesOver_nil _⟩⟩
  | cons m ms ih =>
    by_cases h : wanted shown m = true
    · have hscan : scan wanted shown (m :: ms) = (⟨true, [m]⟩, ms) := by simp [scan, h]
      rw [hscan]
      exact ⟨fun _ => ⟨[], m, rfl, by simp, passesOver_nil _, h⟩, fun hfound => by simp at hfound⟩
    · have hm : wanted shown m = false := Bool.eq_false_iff.mpr h
      have hscan : (scan wanted shown (m :: ms)).1 =
          ⟨(scan wanted (m :: shown) ms).1.found, m :: (scan wanted (m :: shown) ms).1.seen⟩ := by
        simp [scan, hm]
      -- The later moves are shown to the test after `m`.
      have hafter : (fun front => wanted (front ++ m :: shown)) =
          fun front => wanted (front ++ [m] ++ shown) := by simp
      have hothers := ih (m :: shown)
      rw [hafter] at hothers
      rw [hscan]
      exact hothers.cons hm

theorem scan_split (wanted : List Move → Move → Bool) (shown ms : List Move) :
    (scan wanted shown ms).1.seen ++ (scan wanted shown ms).2 = ms := by
  induction ms generalizing shown with
  | nil => rfl
  | cons m ms ih =>
    by_cases h : wanted shown m = true
    · simp [scan, h]
    · simp [scan, h, ih]

def Answer.removed : Answer → List Move
  | .truth _ | .move (.error _) => []
  | .move (.ok m) => [m]
  | .moves ms => ms
  | .finding x => x.seen

def removedBy (answers : List Answer) : List Move := answers.flatMap Answer.removed

/-- What a script leaves of a list. -/
def leave (s : Snapshot) : List Request → List Move → List Move
  | [], ms => ms
  | request :: script, ms => leave s script (request.serve s ms).2

theorem leave_append (s : Snapshot) (script later : List Request) (ms : List Move) :
    leave s (script ++ later) ms = leave s later (leave s script ms) := by
  induction script generalizing ms with
  | nil => rfl
  | cons request script ih => exact ih _

theorem serveAll_append (s : Snapshot) (script later : List Request) (ms : List Move) :
    serveAll s (script ++ later) ms =
      serveAll s script ms ++ serveAll s later (leave s script ms) := by
  induction script generalizing ms with
  | nil => rfl
  | cons request script ih => exact congrArg _ (ih _)

@[simp] theorem length_serveAll (s : Snapshot) (script : List Request) (ms : List Move) :
    (serveAll s script ms).length = script.length := by
  induction script generalizing ms with
  | nil => rfl
  | cons request script ih => exact congrArg (· + 1) (ih _)

theorem getElem?_serveAll (s : Snapshot) (script : List Request) (request : Request)
    (later : List Request) (ms : List Move) :
    (serveAll s (script ++ request :: later) ms)[script.length]? =
      some (request.serve s (leave s script ms)).1 := by
  rw [serveAll_append, List.getElem?_append_right (by simp), length_serveAll, Nat.sub_self]
  rfl

theorem removed_serve (s : Snapshot) (request : Request) (ms : List Move) :
    (request.serve s ms).1.removed ++ (request.serve s ms).2 = ms := by
  cases request with
  | hasNext => rfl
  | next => cases ms <;> rfl
  | advance => cases ms <;> rfl
  | take count => exact List.take_append_drop count ms
  | rest => exact List.append_nil ms
  | probeWith test => exact scan_split (test s) [] ms

theorem removedBy_serveAll (s : Snapshot) (script : List Request) (ms : List Move) :
    removedBy (serveAll s script ms) ++ leave s script ms = ms := by
  induction script generalizing ms with
  | nil => rfl
  | cons request script ih =>
    have hothers := ih (request.serve s ms).2
    have hsplit : removedBy (serveAll s (request :: script) ms) =
        (request.serve s ms).1.removed ++
          removedBy (serveAll s script (request.serve s ms).2) := rfl
    rw [hsplit, List.append_assoc, leave, hothers, removed_serve]

theorem leave_nil (s : Snapshot) (script : List Request) : leave s script [] = [] := by
  have hall := removedBy_serveAll s script []
  exact (List.append_eq_nil_iff.mp hall).2

theorem serve_next_eq_iff {s : Snapshot} {ms : List Move} :
    (Request.next.serve s ms).1 = .move (.error .cursorExhausted) ↔ ms = [] := by
  cases ms <;> simp [Request.serve]

structure AnswersFrom (c : Cursor) (s : Snapshot) (ms : List Move) : Prop where
  served : ∀ script, (c.run script).value = serveAll s script ms
  /-- Moves leave the list from its front. -/
  removed : ∀ script, removedBy (c.run script).value ++ leave s script ms = ms
  /-- To look for another move changes no other answer. -/
  unnoticed : ∀ script later,
    (c.run (script ++ .hasNext :: later)).value.eraseIdx script.length =
      (c.run (script ++ later)).value
  refused : ∀ script later, (c.run (script ++ .next :: later)).value[script.length]? =
    some (.move (.error .cursorExhausted)) ↔ leave s script ms = []
  /-- What is refused once is refused after any other requests. -/
  refusedAgain : ∀ script between later,
    (c.run (script ++ .next :: later)).value[script.length]? =
        some (.move (.error .cursorExhausted)) →
      (c.run (script ++ between ++ .next :: later)).value[(script ++ between).length]? =
        some (.move (.error .cursorExhausted))
  probed : ∀ script test later, ∃ x,
    (c.run (script ++ .probeWith test :: later)).value[script.length]? = some (.finding x) ∧
      x.EndsAtFirst (test s) (leave s script ms)

theorem Holds.answersFrom {c : Cursor} (h : c.Holds s ms) : c.AnswersFrom s ms := by
  have hrefused : ∀ script later, (c.run (script ++ .next :: later)).value[script.length]? =
      some (.move (.error .cursorExhausted)) ↔ leave s script ms = [] := by
    intro script later
    rw [h.run, getElem?_serveAll, Option.some_inj, serve_next_eq_iff]
  refine ⟨h.run, fun script => ?removed, fun script later => ?unnoticed, hrefused,
    fun script between later hnone => ?refusedAgain, fun script test later => ?probed⟩
  case removed =>
    rw [h.run, removedBy_serveAll]
  case unnoticed =>
    rw [h.run, h.run, serveAll_append, serveAll_append,
      List.eraseIdx_append_of_length_le (by simp), length_serveAll, Nat.sub_self]
    rfl
  case refusedAgain =>
    rw [hrefused] at hnone ⊢
    rw [leave_append, hnone, leave_nil]
  case probed =>
    refine ⟨(scan (test s) [] (leave s script ms)).1, ?_, ?_⟩
    · rw [h.run, getElem?_serveAll]
      rfl
    · simpa using scan_endsAtFirst (test s) [] (leave s script ms)

end Cursor
end LegalMoves
