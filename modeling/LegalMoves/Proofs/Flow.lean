import LegalMoves.Proofs.Front
import LegalMoves.Rule.Cursor

set_option autoImplicit false

/-!
The flow of a rule: all that a fresh cursor meets from its making to its end, in order. A priority
looks at the first move of a part early, but a probe asks for that move at once, so to a probe a
cursor is a search through the flow, and the flow of a compound is made up of those of its parts.
-/
namespace LegalMoves
namespace Rule

open MoveStream

variable {rule : Rule}

def probeWith (rule : Rule) (test : Cursor.Test) (s : Snapshot) : Traced Finding := do
  let c ← rule.cursor s
  let (finding, _) ← c.probe test
  pure finding

/-- All that a fresh cursor meets until its end: what happens when it is made, then its stream. -/
def flow (rule : Rule) (s : Snapshot) : MoveStream :=
  .notes (rule.cursor s).events (rule.cursor s).value.stream

def flowFirst (rules : List Rule) (s : Snapshot) : MoveStream :=
  .notes (openFirst rules s).events (openFirst rules s).value

theorem probeWith_eq_look (rule : Rule) (test : Cursor.Test) (s : Snapshot) :
    rule.probeWith test s = Cursor.look (test s) [] (rule.flow s) := by
  rw [flow, Cursor.look_notes]
  have hsnapshot := snapshot_cursor rule s
  ext1
  · simp [probeWith, Cursor.probe, Cursor.look, hsnapshot]
  · simp [probeWith, Cursor.probe, Cursor.look, hsnapshot]

theorem flow_leaf (own : Leaf) (marks : Marks) (chain : Chain) (s : Snapshot) :
    (Rule.leaf own marks chain).flow s = (own.stream s).map (Move.stamp marks chain) := rfl

theorem flow_union (parts : List Rule) (marks : Marks) (chain : Chain) (s : Snapshot) :
    (Rule.compound .union parts marks chain).flow s =
      (openAll parts s).map (Move.stamp marks chain) := rfl

theorem flow_priority (parts : List Rule) (marks : Marks) (chain : Chain) (s : Snapshot) :
    (Rule.compound .priority parts marks chain).flow s =
      (flowFirst parts s).map (Move.stamp marks chain) := by
  rw [flowFirst, map_notes]
  simp [flow, cursor, Cursor.onDemand]

theorem flow_counted (id : String) (inner : Rule) (s : Snapshot) :
    (Rule.counted id inner).flow s = note (.opened id) fun _ => (inner.flow s).counted id := by
  rw [flow, flow, counted_notes]
  simp [cursor, Cursor.onDemand, notes]

theorem openAll_cons (rule : Rule) (rules : List Rule) (s : Snapshot) :
    openAll (rule :: rules) s = (rule.flow s).append fun _ => openAll rules s := by
  rw [flow, append_notes, openAll]

/-- The look at the first move of a part happens early, but it is the same look that the first
request would have taken. -/
theorem flowFirst_cons (rule : Rule) (rules : List Rule) (s : Snapshot) :
    flowFirst (rule :: rules) s =
      if (rule.flow s).toList = [] then (rule.flow s).append fun _ => flowFirst rules s
      else rule.flow s := by
  have hlist : (rule.flow s).toList = (rule.cursor s).value.stream.toList := by simp [flow]
  have hready := isReady_peek (rule.cursor s).value.stream
  by_cases h : (rule.cursor s).value.stream.toList = []
  · rw [if_pos (hlist.trans h), flow, append_notes, ← notes_peek_of_nil h]
    simp [flowFirst, openFirst, Cursor.hasNext, hready, h, notes_append]
  · rw [if_neg (hlist ▸ h), flow, ← notes_peek (rule.cursor s).value.stream]
    simp [flowFirst, openFirst, Cursor.hasNext, hready, h, notes_append]

theorem toList_flow (h : rule.Faithful) (s : Snapshot) : (rule.flow s).toList = rule.moves s := by
  rw [flow, toList_notes]
  exact h s

theorem faithful_of_customs_nil (h : rule.customs = []) : rule.Faithful :=
  faithful_of_customs (by simp [h])

end Rule
end LegalMoves
