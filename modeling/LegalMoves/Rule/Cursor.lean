import LegalMoves.Cursor
import LegalMoves.Rule.Moves

set_option autoImplicit false

/-!
Cursors over the moves of a rule. A union opens a part only when all parts before it are used up. A
priority looks for the first part with a move as soon as it is opened, and opens no part after that
one. In a tree whose rules from outside stream the moves that they have, the cursor of every rule
holds the moves that the rule evaluates to.
-/
namespace LegalMoves
namespace Rule

mutual

def cursor : Rule → Snapshot → Traced Cursor
  | .leaf own marks chain, s =>
    pure ⟨s, own.isLazy, (own.stream s).map (Move.stamp marks chain)⟩
  | .compound .union parts marks chain, s =>
    pure (Cursor.onDemand s ((openAll parts s).map (Move.stamp marks chain)))
  | .compound .priority parts marks chain, s => do
    let stream ← openFirst parts s
    pure (Cursor.onDemand s (stream.map (Move.stamp marks chain)))
  | .counted id inner, s => do
    Traced.note (.opened id)
    let c ← inner.cursor s
    pure (Cursor.onDemand s (c.stream.counted id))

def openAll : List Rule → Snapshot → MoveStream
  | [], _ => .stop
  | rule :: rules, s =>
    .notes (rule.cursor s).events
      ((rule.cursor s).value.stream.append fun _ => openAll rules s)

/-- The moves of the first rule of a list that has any. -/
def openFirst : List Rule → Snapshot → Traced MoveStream
  | [], _ => pure .stop
  | rule :: rules, s => do
    let c ← rule.cursor s
    let (ready, c) ← c.hasNext
    if ready then pure c.stream else openFirst rules s

end

def probe (rule : Rule) (wanted : Snapshot → Move → Bool) (s : Snapshot) : Traced Finding := do
  let c ← rule.cursor s
  let (finding, _) ← c.probe fun t _ m => wanted t m
  pure finding

def canMoveTo (rule : Rule) (target : Site) (s : Snapshot) : Traced Bool := do
  let finding ← rule.probe (fun _ m => m.target == target) s
  pure finding.found

mutual

/-- The rules from outside among the parts of a rule, at any depth. -/
def customs : Rule → List Rule
  | .leaf own marks chain => if own.isCustom then [.leaf own marks chain] else []
  | .compound _ parts _ _ => customsAll parts
  | .counted _ inner => inner.customs

def customsAll : List Rule → List Rule
  | [] => []
  | rule :: rules => rule.customs ++ customsAll rules

end

/-- Whether the cursors of a rule hold the moves that the rule evaluates to. -/
def Faithful (rule : Rule) : Prop := ∀ s, (rule.cursor s).value.remaining = rule.moves s

@[simp] theorem customsAll_eq_flatMap (rules : List Rule) :
    customsAll rules = rules.flatMap customs := by
  induction rules with
  | nil => rfl
  | cons rule rules ih => simp [customsAll, ih]

theorem snapshot_cursor (rule : Rule) (s : Snapshot) : (rule.cursor s).value.snapshot = s := by
  cases rule with
  | leaf own marks chain => rfl
  | compound kind parts marks chain => cases kind <;> rfl
  | counted id inner => rfl

theorem toList_openAll {rules : List Rule} (h : ∀ rule ∈ rules, rule.Faithful) (s : Snapshot) :
    (openAll rules s).toList = rules.flatMap (·.moves s) := by
  induction rules with
  | nil => rfl
  | cons rule rules ih =>
    have hstream : (rule.cursor s).value.stream.toList = rule.moves s := h rule (by simp) s
    have hothers := ih fun other hmem => h other (by simp [hmem])
    simp [openAll, hstream, hothers]

theorem toList_openFirst {rules : List Rule} (h : ∀ rule ∈ rules, rule.Faithful) (s : Snapshot) :
    (openFirst rules s).value.toList =
      ((rules.map (·.moves s)).find? (!·.isEmpty)).getD [] := by
  induction rules with
  | nil => rfl
  | cons rule rules ih =>
    have hrule : (rule.cursor s).value.remaining = rule.moves s := h rule (by simp) s
    have hothers := ih fun other hmem => h other (by simp [hmem])
    have hready : (rule.cursor s).value.hasNext.value.1 = !(rule.moves s).isEmpty := by
      rw [Cursor.value_hasNext, hrule]
    have hpeek : (rule.cursor s).value.hasNext.value.2.stream.toList = rule.moves s := by
      rw [← hrule, ← Cursor.remaining_hasNext, Cursor.remaining]
    by_cases hm : (rule.moves s).isEmpty = true
    · simp [openFirst, hready, hm, hothers]
    · simp [openFirst, hready, hm, hpeek]

theorem faithful_of_customs {rule : Rule} (h : ∀ own ∈ rule.customs, own.Faithful) :
    rule.Faithful := by
  induction rule using part_induction with
  | leaf own marks chain =>
    cases hown : own.isCustom with
    | true => exact h _ (by simp [customs, hown])
    | false =>
      intro s
      simp [cursor, Cursor.remaining, Leaf.toList_stream hown]
  | compound kind parts marks chain ih =>
    have hparts : ∀ part ∈ parts, part.Faithful := by
      intro part hmem
      refine ih part hmem fun own hown => h own ?_
      rw [customs, customsAll_eq_flatMap]
      exact List.mem_flatMap.mpr ⟨part, hmem, hown⟩
    intro s
    cases kind with
    | union =>
      simp [cursor, Cursor.remaining, Cursor.onDemand, toList_openAll hparts, moves_union]
    | priority =>
      simp [cursor, Cursor.remaining, Cursor.onDemand, toList_openFirst hparts, moves_priority]
  | counted id inner ih =>
    intro s
    have hinner := ih h s
    simpa [cursor, Cursor.remaining, Cursor.onDemand] using hinner

end Rule
end LegalMoves
