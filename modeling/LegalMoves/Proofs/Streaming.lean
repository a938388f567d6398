import LegalMoves.Proofs.Queue
import LegalMoves.Rule.Chains
import LegalMoves.Rule.Cursor

set_option autoImplicit false

namespace LegalMoves
namespace Rule

/-- Scripts cannot tell the cursors of a rule from cursors over its evaluated moves. -/
def StreamsEval (rule : Rule) : Prop :=
  ∀ (s : Snapshot) (script : List Cursor.Request),
    ((rule.cursor s).value.run script).value =
      ((Cursor.eager s (rule.eval s).value.moves).run script).value

theorem Faithful.holds {rule : Rule} (h : rule.Faithful) (s : Snapshot) :
    (rule.cursor s).value.Holds s (rule.moves s) := ⟨snapshot_cursor rule s, h s⟩

theorem streamsEval_iff_faithful {rule : Rule} : rule.StreamsEval ↔ rule.Faithful := by
  constructor
  · intro h s
    have hcursor : (rule.cursor s).value.Holds s (rule.cursor s).value.remaining :=
      ⟨snapshot_cursor rule s, rfl⟩
    have hall := h s [.rest]
    rw [hcursor.run, (Cursor.holds_eager s _).run, Cursor.serveAll_rest,
      Cursor.serveAll_rest] at hall
    simpa [value_eval] using hall
  · intro h s script
    rw [(h.holds s).run, (Cursor.holds_eager s _).run, value_eval]

/-- Streams and evaluations of a tree are the same to every script, if those of the rules from
outside in it are. -/
theorem cursor_answers_as_eval {rule : Rule} (h : ∀ own ∈ rule.customs, own.StreamsEval)
    (s : Snapshot) (script : List Cursor.Request) :
    (rule.cursor s).value.snapshot = s ∧
      ((rule.cursor s).value.run script).value =
        ((Cursor.eager s (rule.eval s).value.moves).run script).value := by
  have hfaithful : rule.Faithful :=
    faithful_of_customs fun own hown => streamsEval_iff_faithful.mp (h own hown)
  exact ⟨snapshot_cursor rule s, streamsEval_iff_faithful.mpr hfaithful s script⟩

/-- A rule around another one that yields its moves in reverse order. -/
def reversed (inner : Rule) : Custom where
  text := "reversed"
  moves s := (inner.moves s).reverse
  stream? := some fun s => .ofList (inner.cursor s).value.remaining.reverse
  carried := (inner.chains ++ inner.brought).map fun entry => .attached entry.1 entry.2

theorem faithful_reversed {inner : Rule} (h : inner.Faithful) (marks : Marks) (chain : Chain) :
    (Rule.leaf (.custom inner.reversed) marks chain).Faithful := by
  intro s
  simp [cursor, Cursor.remaining, Leaf.stream, Leaf.moves, reversed, ← h s]

def placesOrPass : Rule :=
  .compound .union
    [.ofParts .priority
      [.ofLeaf (.step none),
        .leaf (.custom (ofLeaf .place).reversed) {} (.attached ⟨0⟩ (ofLeaf .pass))],
      .ofLeaf .pass]
    { decision := true } .absent

theorem streamsEval_customs_placesOrPass : ∀ own ∈ placesOrPass.customs, own.StreamsEval := by
  have hplace : (ofLeaf .place).Faithful :=
    faithful_of_customs (by simp [customs, ofLeaf, Leaf.isCustom])
  intro own hown
  obtain rfl : own =
      .leaf (.custom (ofLeaf .place).reversed) {} (.attached ⟨0⟩ (ofLeaf .pass)) := by
    simpa [placesOrPass, customs, ofParts, ofLeaf, Leaf.isCustom] using hown
  exact streamsEval_iff_faithful.mpr (faithful_reversed hplace _ _)

theorem cursor_answers_as_eval_placesOrPass :
    (∀ own ∈ placesOrPass.customs, own.StreamsEval) ∧ placesOrPass.customs.length = 1 ∧
      ((placesOrPass.cursor
          { players := 2, board := #[none, none], players_bounds := by decide }).value.run
        [.hasNext, .probe fun s m => m.target == ⟨0⟩ && m.mover == s.mover, .next, .next]).value =
        [.truth true,
          .finding ⟨true,
            [{ Move.add ⟨0⟩ ⟨1⟩ with decision := true, chains := [⟨0⟩] },
              { Move.add ⟨0⟩ ⟨0⟩ with decision := true, chains := [⟨0⟩] }]⟩,
          .move (.ok { Move.pass ⟨0⟩ with decision := true }), .move (.error .cursorExhausted)] := by
  refine ⟨streamsEval_customs_placesOrPass, rfl, ?_⟩
  exact (cursor_answers_as_eval streamsEval_customs_placesOrPass _ _).2.trans rfl

end Rule
end LegalMoves
