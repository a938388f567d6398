import LegalMoves.Proofs.Preparation
import LegalMoves.Proofs.Reachability
import Mathlib.Data.Nat.Bitwise

set_option autoImplicit false

namespace LegalMoves
namespace Capabilities

def Has (a : Capabilities) (bit : Nat) : Prop := a.bits.toNat.testBit bit = true

instance (a : Capabilities) (bit : Nat) : Decidable (a.Has bit) :=
  inferInstanceAs (Decidable (_ = true))

variable {a b c : Capabilities} {bit : Nat}

@[simp] theorem not_has_empty (bit : Nat) : ¬ (∅ : Capabilities).Has bit := by
  simp [Has]

@[simp] theorem has_union : (a ∪ b).Has bit ↔ a.Has bit ∨ b.Has bit := by
  simp [Has]

@[simp] theorem has_inter : (a ∩ b).Has bit ↔ a.Has bit ∧ b.Has bit := by
  simp [Has]

theorem ext_has (h : ∀ bit, a.Has bit ↔ b.Has bit) : a = b := by
  ext1
  refine UInt64.toNat_inj.mp (Nat.eq_of_testBit_eq fun bit => ?_)
  rw [Bool.eq_iff_iff]
  exact h bit

theorem contains_iff : a.contains b = true ↔ ∀ bit, b.Has bit → a.Has bit := by
  have hinter : a.contains b = true ↔ a ∩ b = b := by
    simp [contains, Capabilities.ext_iff]
  rw [hinter]
  constructor
  · intro h bit hbit
    rw [← h] at hbit
    exact (has_inter.mp hbit).1
  · intro h
    refine ext_has fun bit => ?_
    rw [has_inter]
    exact and_iff_right_of_imp (h bit)

theorem intersects_iff : a.intersects b = true ↔ ∃ bit, a.Has bit ∧ b.Has bit := by
  have hdisjoint : a.intersects b = false ↔ a ∩ b = ∅ := by
    simp [intersects, Capabilities.ext_iff]
  rw [← not_iff_not, Bool.not_eq_true, hdisjoint]
  constructor
  · rintro hempty ⟨bit, hboth⟩
    have hbit := has_inter.mpr hboth
    rw [hempty] at hbit
    exact not_has_empty bit hbit
  · intro hnone
    refine ext_has fun bit => ?_
    have hboth : ¬ (a ∩ b).Has bit := fun hbit => hnone ⟨bit, has_inter.mp hbit⟩
    exact iff_of_false hboth (not_has_empty bit)

end Capabilities

namespace Repetition

def bit : Repetition → Nat
  | positionalInGame => 4
  | situationalInGame => 5
  | positionalInTurn => 6
  | situationalInTurn => 7

theorem has_capability {kind : Repetition} {bit : Nat} :
    kind.capability.Has bit ↔ bit = kind.bit := by
  have hpower : kind.capability.bits.toNat = 2 ^ kind.bit := by cases kind <;> rfl
  rw [Capabilities.Has, hpower, Nat.testBit_two_pow, decide_eq_true_iff, eq_comm]

theorem has_repetition {bit : Nat} :
    Capabilities.repetition.Has bit ↔ ∃ kind : Repetition, kind.capability.Has bit := by
  rw [Capabilities.repetition, Capabilities.has_union, Capabilities.has_union,
    Capabilities.has_union]
  constructor
  · rintro (((h | h) | h) | h)
    · exact ⟨positionalInGame, h⟩
    · exact ⟨situationalInGame, h⟩
    · exact ⟨positionalInTurn, h⟩
    · exact ⟨situationalInTurn, h⟩
  · rintro ⟨kind, h⟩
    cases kind with
    | positionalInGame => exact Or.inl (Or.inl (Or.inl h))
    | situationalInGame => exact Or.inl (Or.inl (Or.inr h))
    | positionalInTurn => exact Or.inl (Or.inr h)
    | situationalInTurn => exact Or.inr h

end Repetition

namespace Capabilities

variable {a b : Capabilities}

theorem contains_capability_iff {kind : Repetition} :
    a.contains kind.capability = true ↔ a.Has kind.bit := by
  rw [contains_iff]
  simp [Repetition.has_capability]

theorem needsHistory_iff :
    a.needsHistory = true ↔ ∃ kind : Repetition, a.contains kind.capability = true := by
  rw [needsHistory, intersects_iff]
  simp [Repetition.has_repetition, Repetition.has_capability, contains_capability_iff]

@[simp] theorem needsHistory_union :
    (a ∪ b).needsHistory = true ↔ a.needsHistory = true ∨ b.needsHistory = true := by
  simp [needsHistory_iff, contains_capability_iff, exists_or]

end Capabilities

theorem Game.needsHistory_capabilities (g : Game) :
    g.capabilities.needsHistory = true ↔ g.noRepeat ≠ none := by
  have hmode : ¬ (if g.config.mode = .simultaneous then Capabilities.simultaneous
      else ∅).needsHistory = true := by split <;> decide
  have hchance : ¬ (if g.config.stochastic then Capabilities.stochastic
      else ∅).needsHistory = true := by split <;> decide
  have hhidden : ¬ (if g.config.hiddenInfo then Capabilities.hiddenInfo
      else ∅).needsHistory = true := by split <;> decide
  rw [capabilities, Config.capabilities, noRepeat]
  cases hkind : g.config.noRepeat with
  | none => simp [hmode, hchance, hhidden]
  | some kind => simp [kind.needsHistory_capability]

namespace Leaf

@[simp] theorem capabilities_prepare (g : Game) (own : Leaf) :
    (own.prepare g).capabilities = own.capabilities := by
  cases own <;> rfl

theorem has_capabilities_iff {own : Leaf} {bit : Nat} :
    own.capabilities.Has bit ↔
      (∃ ms declared carried, own = .listed ms declared carried ∧ declared.Has bit) ∨
        (∃ table, own = .step table) ∧ Capabilities.fromPositions.Has bit := by
  cases own with
  | step table => simp [capabilities]
  | listed ms declared carried => simp [capabilities]
  | _ => simp [capabilities]

theorem origin_of_mem_moves_pass {s : Snapshot} {m : Move} (h : m ∈ Leaf.pass.moves s) :
    m.origin = none := by
  rw [moves, List.mem_singleton] at h
  exact congrArg Move.origin h

theorem origin_of_mem_moves_place {s : Snapshot} {m : Move} (h : m ∈ Leaf.place.moves s) :
    m.origin = none := by
  obtain ⟨site, _, hsite⟩ := List.mem_flatMap.mp h
  unfold placements at hsite
  split at hsite
  · exact congrArg Move.origin (List.mem_singleton.mp hsite)
  · simp at hsite

end Leaf

namespace Rule

variable {rule : Rule} {bit : Nat}

theorem has_capabilitiesAll_iff {rules : List Rule} :
    (capabilitiesAll rules).Has bit ↔ ∃ rule ∈ rules, rule.capabilities.Has bit := by
  induction rules with
  | nil => simp [capabilitiesAll]
  | cons rule rules ih => simp [capabilitiesAll, ih]

theorem has_capabilities_iff :
    rule.capabilities.Has bit ↔ ∃ own ∈ rule.leaves, own.capabilities.Has bit := by
  induction rule using tree_induction
    (C := fun chain => chain.capabilities.Has bit ↔
      ∃ own ∈ chain.leaves, own.capabilities.Has bit) with
  | leaf own marks chain ih => simp [capabilities, leaves, ih]
  | compound kind parts marks chain ihs ih =>
    have hparts : (∃ part ∈ parts, part.capabilities.Has bit) ↔
        ∃ own ∈ parts.flatMap leaves, own.capabilities.Has bit := by
      constructor
      · rintro ⟨part, hmem, hbit⟩
        obtain ⟨own, hown, hdeclared⟩ := (ihs part hmem).mp hbit
        exact ⟨own, List.mem_flatMap.mpr ⟨part, hmem, hown⟩, hdeclared⟩
      · rintro ⟨own, hown, hdeclared⟩
        obtain ⟨part, hmem, hleaf⟩ := List.mem_flatMap.mp hown
        exact ⟨part, hmem, (ihs part hmem).mpr ⟨own, hleaf, hdeclared⟩⟩
    rw [capabilities, leaves, leavesAll_eq_flatMap, Capabilities.has_union,
      has_capabilitiesAll_iff, hparts, ih]
    simp only [List.mem_append, or_and_right, exists_or]
  | counted id inner ih => exact ih
  | absent => simp [Chain.capabilities, Chain.leaves]
  | attached id follow ih => exact ih

theorem has_capabilities_iff_reachesLeaf :
    rule.capabilities.Has bit ↔
      (∃ ms declared carried, rule.ReachesLeaf (.listed ms declared carried) ∧ declared.Has bit) ∨
        (∃ table, rule.ReachesLeaf (.step table)) ∧ Capabilities.fromPositions.Has bit := by
  rw [has_capabilities_iff]
  simp only [Leaf.has_capabilities_iff, mem_leaves_iff]
  constructor
  · rintro ⟨own, hreach, ⟨ms, declared, carried, rfl, hbit⟩ | ⟨⟨table, rfl⟩, hbit⟩⟩
    · exact Or.inl ⟨ms, declared, carried, hreach, hbit⟩
    · exact Or.inr ⟨⟨table, hreach⟩, hbit⟩
  · rintro (⟨ms, declared, carried, hreach, hbit⟩ | ⟨⟨table, hreach⟩, hbit⟩)
    · exact ⟨_, hreach, Or.inl ⟨ms, declared, carried, rfl, hbit⟩⟩
    · exact ⟨_, hreach, Or.inr ⟨⟨table, rfl⟩, hbit⟩⟩

theorem needsHistory_capabilities :
    rule.capabilities.needsHistory = true ↔
      ∃ ms declared carried, rule.ReachesLeaf (.listed ms declared carried) ∧
        ∃ kind : Repetition, declared.contains kind.capability = true := by
  have horigins : ∀ kind : Repetition, ¬ Capabilities.fromPositions.Has kind.bit := by
    intro kind
    cases kind <;> decide
  simp only [Capabilities.needsHistory_iff, Capabilities.contains_capability_iff,
    has_capabilities_iff_reachesLeaf, horigins, and_false, or_false]
  constructor
  · rintro ⟨kind, ms, declared, carried, hreach, hbit⟩
    exact ⟨ms, declared, carried, hreach, kind, hbit⟩
  · rintro ⟨ms, declared, carried, hreach, kind, hbit⟩
    exact ⟨kind, ms, declared, carried, hreach, hbit⟩

theorem capabilities_prepared (g : Game) (rule : Rule) :
    (rule.prepared g).capabilities = rule.capabilities := by
  refine Capabilities.ext_has fun bit => ?_
  rw [has_capabilities_iff, has_capabilities_iff, leaves_prepared]
  simp

/-- Stamping keeps origins, so the origin of a move is that of a move of a leaf. -/
theorem exists_leaf_of_mem_moves {s : Snapshot} {m : Move} (h : m ∈ rule.moves s) :
    ∃ own ∈ rule.leaves, ∃ raw ∈ own.moves s, raw.origin = m.origin := by
  induction rule using part_induction generalizing m with
  | leaf own marks chain =>
    rw [moves_leaf] at h
    obtain ⟨raw, hraw, rfl⟩ := List.mem_map.mp h
    exact ⟨own, by simp [leaves], raw, hraw, rfl⟩
  | compound kind parts marks chain ih =>
    obtain ⟨part, hmem, raw, hraw, rfl⟩ := exists_part_of_mem_moves h
    obtain ⟨own, hown, first, hfirst, horigin⟩ := ih part hmem hraw
    exact ⟨own, leaves_subset_of_mem_parts hmem hown, first, hfirst, horigin⟩
  | counted id inner ih => exact ih h

/-- A move with an origin under a prepared tree makes the tree ask for origins, if the leaves that are
given their moves say so too. -/
theorem contains_fromPositions_prepared (g : Game)
    (hfixed : ∀ ms declared carried, rule.ReachesLeaf (.listed ms declared carried) →
      (∃ m ∈ ms, m.origin ≠ none) → declared.contains .fromPositions = true)
    (hcustom : ∀ custom, rule.ReachesLeaf (.custom custom) →
      ∀ s, ∀ m ∈ custom.moves s, m.origin = none)
    {node : Rule} (hnode : (rule.prepared g).Reaches node) {s : Snapshot} {m : Move}
    (hm : m ∈ node.moves s) (horigin : m.origin ≠ none) :
    rule.capabilities.contains .fromPositions = true := by
  rw [Capabilities.contains_iff]
  intro bit hbit
  rw [has_capabilities_iff_reachesLeaf]
  obtain ⟨own, hown, raw, hraw, hsame⟩ := exists_leaf_of_mem_moves hm
  rw [← hsame] at horigin
  -- The leaf was under the tree before it was prepared, and only a step is changed by that.
  have hprepared := leaves_subset_of_reaches hnode hown
  rw [leaves_prepared] at hprepared
  obtain ⟨before, hbefore, rfl⟩ := List.mem_map.mp hprepared
  have hreach := mem_leaves_iff.mp hbefore
  cases before with
  | step table => exact Or.inr ⟨⟨table, hreach⟩, hbit⟩
  | listed ms declared carried =>
    have hdeclared := hfixed ms declared carried hreach ⟨raw, hraw, horigin⟩
    exact Or.inl ⟨ms, declared, carried, hreach, Capabilities.contains_iff.mp hdeclared bit hbit⟩
  | custom custom => exact absurd (hcustom custom hreach s raw hraw) horigin
  | pass => exact absurd (Leaf.origin_of_mem_moves_pass hraw) horigin
  | place => exact absurd (Leaf.origin_of_mem_moves_place hraw) horigin

end Rule

namespace Compiled

/-- The bits of a compiled tree are those of its game, those that a fixed leaf under it declares, and
that for origins if there is a step under it. So it needs a history exactly for a game that forbids
repetition or a leaf that declares a kind of repetition; and if every fixed leaf with a move that has
an origin declares it, and no rule from outside has such a move, then no rule under the tree yields a
move with an origin unless the tree asks for origins. -/
theorem capabilities_compile (g : Game) (rule : Rule) :
    (∀ bit, (compile g rule).value.capabilities.Has bit ↔
        g.capabilities.Has bit ∨
          (∃ ms declared carried, rule.ReachesLeaf (.listed ms declared carried) ∧
            declared.Has bit) ∨
          (∃ table, rule.ReachesLeaf (.step table)) ∧ Capabilities.fromPositions.Has bit) ∧
      ((compile g rule).value.needsHistory = true ↔
        g.noRepeat ≠ none ∨
          ∃ ms declared carried, rule.ReachesLeaf (.listed ms declared carried) ∧
            ∃ kind : Repetition, declared.contains kind.capability = true) ∧
      ((∀ ms declared carried, rule.ReachesLeaf (.listed ms declared carried) →
          (∃ m ∈ ms, m.origin ≠ none) → declared.contains .fromPositions = true) →
        (∀ custom, rule.ReachesLeaf (.custom custom) →
          ∀ s, ∀ m ∈ custom.moves s, m.origin = none) →
        ∀ node, (compile g rule).value.root.Reaches node →
          ∀ s, (∃ m ∈ (node.eval s).value.moves, m.origin ≠ none) →
            (compile g rule).value.capabilities.contains .fromPositions = true) := by
  have hunion : (compile g rule).value.capabilities = g.capabilities ∪ rule.capabilities := by
    rw [← rule.capabilities_prepared g]
    rfl
  refine ⟨fun bit => ?_, ?_, fun hfixed hcustom node hnode s => ?_⟩
  · rw [hunion, Capabilities.has_union, Rule.has_capabilities_iff_reachesLeaf]
  · rw [needsHistory, hunion, Capabilities.needsHistory_union, g.needsHistory_capabilities,
      Rule.needsHistory_capabilities]
  · rintro ⟨m, hm, horigin⟩
    have hrule := Rule.contains_fromPositions_prepared g hfixed hcustom hnode hm horigin
    rw [hunion, Capabilities.contains_iff]
    intro bit hbit
    exact Capabilities.has_union.mpr (Or.inr (Capabilities.contains_iff.mp hrule bit hbit))

def choiceThenStep : Rule :=
  .ofParts .union
    [.leaf .pass {} (.attached ⟨0⟩
      (.leaf (.fixed [Move.select ⟨0⟩ ⟨1⟩] .repeatPositionalInTurn) {}
        (.attached ⟨1⟩ (.ofLeaf (.step none)))))]

theorem leaves_choiceThenStep :
    choiceThenStep.leaves =
      [.pass, .fixed [Move.select ⟨0⟩ ⟨1⟩] .repeatPositionalInTurn, .step none] := rfl

theorem capabilities_compile_choiceThenStep :
    (compile lineOfThree choiceThenStep).value.capabilities.Has 6 ∧
      (compile lineOfThree choiceThenStep).value.needsHistory = true ∧
      (compile lineOfThree choiceThenStep).value.capabilities.contains .fromPositions = true := by
  obtain ⟨hbits, hhistory, horigins⟩ := capabilities_compile lineOfThree choiceThenStep
  have hchoice : choiceThenStep.ReachesLeaf
      (.fixed [Move.select ⟨0⟩ ⟨1⟩] .repeatPositionalInTurn) := by
    rw [← Rule.mem_leaves_iff, leaves_choiceThenStep]
    simp
  refine ⟨(hbits 6).mpr (Or.inr (Or.inl ⟨_, _, _, hchoice, by decide⟩)),
    hhistory.mpr (Or.inr ⟨_, _, _, hchoice, .positionalInTurn, by decide⟩), ?_⟩
  have hreach : (compile lineOfThree choiceThenStep).value.root.Reaches
      ((Rule.ofLeaf (.step none)).prepared lineOfThree) := by
    simp [root_compile, choiceThenStep, Rule.ofParts, Rule.ofLeaf, Rule.reaches_compound_iff,
      Rule.reaches_leaf_iff]
  have hfresh : ∀ table, .step (some table) ∉ (Rule.ofLeaf (.step none)).leaves := by
    simp [Rule.ofLeaf, Rule.leaves, Chain.leaves]
  have hstep : Move.step ⟨0⟩ ⟨1⟩ ⟨0⟩ ∈ [Move.step ⟨0⟩ ⟨1⟩ ⟨0⟩, Move.step ⟨0⟩ ⟨1⟩ ⟨2⟩] :=
    List.mem_cons_self
  refine horigins ?_ ?_ _ hreach
    { players := 2, board := #[none, some ⟨0⟩, none], players_bounds := by decide } ?_
  · rintro ms declared carried hms ⟨m, hm, horigin⟩
    rw [← Rule.mem_leaves_iff, leaves_choiceThenStep] at hms
    simp [Leaf.fixed] at hms
    obtain ⟨rfl, rfl, rfl⟩ := hms
    rw [List.mem_singleton] at hm
    exact absurd (congrArg Move.origin hm) horigin
  · intro custom hcustom
    rw [← Rule.mem_leaves_iff, leaves_choiceThenStep] at hcustom
    simp [Leaf.fixed] at hcustom
  · rw [Rule.value_eval_prepared lineOfThree hfresh]
    exact ⟨Move.step ⟨0⟩ ⟨1⟩ ⟨0⟩, hstep, by decide⟩

end Compiled
end LegalMoves
