import LegalMoves.Compiled
import LegalMoves.Proofs.Streaming

set_option autoImplicit false

namespace LegalMoves
namespace Rule

variable {rule : Rule}

theorem Faithful.value_probe (h : rule.Faithful) (wanted : Snapshot → Move → Bool) (s : Snapshot) :
    (rule.probe wanted s).value =
      ⟨(rule.moves s).any (wanted s),
        (rule.moves s).take ((rule.moves s).findIdx (wanted s) + 1)⟩ := by
  obtain ⟨hfinding, _⟩ := (h.holds s).probe fun t _ m => wanted t m
  rw [Cursor.scan_of_plain] at hfinding
  exact hfinding

theorem Faithful.value_canMoveTo (h : rule.Faithful) (target : Site) (s : Snapshot) :
    (rule.canMoveTo target s).value = (rule.moves s).any (·.target == target) := by
  have hprobe := h.value_probe (fun _ m => m.target == target) s
  exact congrArg Finding.found hprobe

theorem Faithful.value_canMove (h : rule.Faithful) (o : Oracle) (s : Snapshot) :
    (rule.canMove o s).value =
      ⟨(rule.moves s).any (o.allows s),
        o.questions s ((rule.moves s).take ((rule.moves s).findIdx (o.allows s) + 1))⟩ := by
  obtain ⟨hfinding, hleft⟩ := (h.holds s).probe fun t _ m => o.allows t m
  rw [Cursor.scan_of_plain] at hfinding
  have hvalue : (rule.canMove o s).value =
      ⟨((rule.cursor s).value.probe fun t _ m => o.allows t m).value.1.found,
        o.questions ((rule.cursor s).value.probe fun t _ m => o.allows t m).value.2.snapshot
          ((rule.cursor s).value.probe fun t _ m => o.allows t m).value.1.seen⟩ := rfl
  rw [hvalue, hfinding, hleft.snapshot]

theorem canMove_eq_true_iff (h : rule.Faithful) {o : Oracle} {s : Snapshot} :
    (rule.canMove o s).value.canMove = true ↔ ∃ m ∈ rule.moves s, o.repeats s m = false := by
  rw [h.value_canMove]
  simp [Oracle.allows]

theorem canMove_silent_eq_true_iff (h : rule.Faithful) {s : Snapshot} :
    (rule.canMove .silent s).value.canMove = true ↔ rule.moves s ≠ [] := by
  rw [canMove_eq_true_iff h]
  simp [Oracle.repeats, List.eq_nil_iff_forall_not_mem]

theorem questions_canMove_silent (h : rule.Faithful) (s : Snapshot) :
    (rule.canMove .silent s).value.questions = [] := by
  rw [h.value_canMove]
  rfl

/-- What the queries of a tree say of its evaluated moves, and what an oracle is asked: each move up
to the first allowed one, or each if none is, in order and for the snapshot of the query. A compiled
tree asks the oracle only for a game that forbids repetition. -/
theorem queries_agree_with_eval (h : ∀ own ∈ rule.customs, own.StreamsEval) (s : Snapshot) :
    (∀ target, (rule.canMoveTo target s).value = true ↔
        ∃ m ∈ (rule.eval s).value.moves, m.target = target) ∧
      (∀ o : Oracle, (rule.canMove o s).value.canMove = true ↔
        ∃ m ∈ (rule.eval s).value.moves, o.repeats s m = false) ∧
      (∀ answer : Snapshot → Move → Bool, (rule.canMove (.asking answer) s).value.questions =
        ((rule.eval s).value.moves.take
          ((rule.eval s).value.moves.findIdx (fun m => !answer s m) + 1)).map fun m => (s, m)) ∧
      ∀ c : Compiled, c.root = rule →
        (∀ target, (c.canMoveTo target s).value = (rule.canMoveTo target s).value) ∧
        (c.game.noRepeat ≠ none → ∀ o, (c.canMove o s).value = (rule.canMove o s).value) ∧
        (c.game.noRepeat = none → ∀ o, (c.canMove o s).value.questions = [] ∧
          ((c.canMove o s).value.canMove = true ↔ (c.legalMoves s).value.moves ≠ [])) := by
  have hrule : rule.Faithful :=
    faithful_of_customs fun own hown => streamsEval_iff_faithful.mp (h own hown)
  refine ⟨fun target => ?_, fun o => canMove_eq_true_iff hrule, fun answer => ?_, ?_⟩
  · rw [hrule.value_canMoveTo, value_eval]
    simp
  · rw [hrule.value_canMove, value_eval]
    rfl
  · rintro c rfl
    refine ⟨fun target => rfl, fun hsome o => ?_, fun hnone o => ?_⟩
    · obtain ⟨kind, hkind⟩ := Option.ne_none_iff_exists'.mp hsome
      rw [Compiled.canMove, hkind]
      rfl
    · have hsilent : c.canMove o s = c.root.canMove .silent s := by
        rw [Compiled.canMove, hnone]
        rfl
      rw [hsilent]
      exact ⟨questions_canMove_silent hrule s, canMove_silent_eq_true_iff hrule⟩

theorem queries_agree_with_eval_placesOrPass :
    (∀ own ∈ placesOrPass.customs, own.StreamsEval) ∧
      (placesOrPass.canMove (.asking fun _ m => m.target == ⟨1⟩)
          { players := 2, board := #[none, none], players_bounds := by decide }).value.questions =
        [({ players := 2, board := #[none, none], players_bounds := by decide },
            { Move.add ⟨0⟩ ⟨1⟩ with decision := true, chains := [⟨0⟩] }),
          ({ players := 2, board := #[none, none], players_bounds := by decide },
            { Move.add ⟨0⟩ ⟨0⟩ with decision := true, chains := [⟨0⟩] })] := by
  refine ⟨streamsEval_customs_placesOrPass, ?_⟩
  exact ((queries_agree_with_eval streamsEval_customs_placesOrPass _).2.2.1 _).trans rfl

end Rule
end LegalMoves
