import LegalMoves.Compiled
import LegalMoves.Proofs.Reachability
import LegalMoves.Rule.Chains
import Mathlib.Data.List.Basic

set_option autoImplicit false

/-!
Preparation against a reference. The reference reads the neighbours of a site from the game each time
it needs them and knows no tables. A tree that is prepared for the game for the first time yields the
moves of the reference, and so does every rule in a chain of it, however deep.
-/
namespace LegalMoves

/-- The moves of a leaf on a board where `near` lists the neighbours of a site. -/
def Leaf.movesOn (near : Site → List Site) (s : Snapshot) : Leaf → List Move
  | .pass => [Move.pass s.mover]
  | .place => (s.sites.filter s.isEmpty).map (Move.add s.mover)
  | .step _ => (s.sitesOf s.mover).flatMap fun origin =>
      ((near origin).filter s.isEmpty).map (Move.step s.mover origin)
  | .listed ms _ _ => ms
  | .custom rule => rule.moves s

mutual

def Rule.movesOn (near : Site → List Site) (s : Snapshot) : Rule → List Move
  | .leaf own marks chain => (own.movesOn near s).map (Move.stamp marks chain)
  | .compound .union parts marks chain =>
    (Rule.movesOnEach near s parts).flatten.map (Move.stamp marks chain)
  | .compound .priority parts marks chain =>
    (((Rule.movesOnEach near s parts).find? (!·.isEmpty)).getD []).map (Move.stamp marks chain)
  | .counted _ inner => inner.movesOn near s

def Rule.movesOnEach (near : Site → List Site) (s : Snapshot) : List Rule → List (List Move)
  | [] => []
  | rule :: rules => rule.movesOn near s :: Rule.movesOnEach near s rules

end

def Rule.setOn (near : Site → List Site) (rule : Rule) (s : Snapshot) : MoveSet :=
  ⟨rule.movesOn near s, rule.chain.id?⟩

namespace Leaf

theorem placements_eq_filter (s : Snapshot) (sites : List Site) :
    sites.flatMap (placements s) = (sites.filter s.isEmpty).map (Move.add s.mover) := by
  induction sites with
  | nil => rfl
  | cons site sites ih =>
    by_cases h : s.isEmpty site = true
    · simp [placements, h, ih]
    · simp [placements, h, ih]

theorem moves_prepare (g : Game) {own : Leaf} (h : ∀ table, own ≠ .step (some table))
    (s : Snapshot) : (own.prepare g).moves s = own.movesOn g.neighbours s := by
  cases own with
  | pass => rfl
  | place => exact placements_eq_filter s s.sites
  | step table =>
    cases table with
    | none =>
      refine List.flatMap_congr fun origin _ => ?_
      have hnear : tableNeighbours (some g.table) origin = g.neighbours origin :=
        g.getElem?_table origin
      rw [steps, Option.none_or, hnear]
    | some table => exact absurd rfl (h table)
  | listed ms declared carried => rfl
  | custom rule => rfl

theorem prepare_ne_step_none (g : Game) (own : Leaf) : own.prepare g ≠ .step none := by
  cases own with
  | step table => cases table <;> simp [prepare]
  | _ => simp [prepare]

end Leaf

theorem Move.stamp_prepared (g : Game) (marks : Marks) (chain : Chain) :
    Move.stamp marks (chain.prepared g) = Move.stamp marks chain := by
  funext m
  simp [stamp]

namespace Rule

theorem movesOnEach_eq_map (near : Site → List Site) (s : Snapshot) (rules : List Rule) :
    movesOnEach near s rules = rules.map (·.movesOn near s) := by
  induction rules with
  | nil => rfl
  | cons rule rules ih => simp [movesOnEach, ih]

theorem moves_prepared (g : Game) {rule : Rule} (h : ∀ table, .step (some table) ∉ rule.leaves)
    (s : Snapshot) : (rule.prepared g).moves s = rule.movesOn g.neighbours s := by
  induction rule using part_induction with
  | leaf own marks chain =>
    have hown : ∀ table, own ≠ .step (some table) := by
      rintro table rfl
      exact h table (by simp [leaves])
    rw [prepared_leaf, moves_leaf, Leaf.moves_prepare g hown, Move.stamp_prepared, movesOn]
  | compound kind parts marks chain ih =>
    have hparts : (parts.map (prepared g)).map (·.moves s) =
        parts.map (·.movesOn g.neighbours s) := by
      rw [List.map_map]
      refine List.map_congr_left fun part hmem => ih part hmem fun table htable => h table ?_
      rw [leaves, leavesAll_eq_flatMap]
      exact List.mem_append_left _ (List.mem_flatMap.mpr ⟨part, hmem, htable⟩)
    cases kind with
    | union =>
      rw [prepared_compound, moves_union, List.flatMap_def, hparts, Move.stamp_prepared, movesOn,
        movesOnEach_eq_map]
    | priority =>
      rw [prepared_compound, moves_priority, hparts, Move.stamp_prepared, movesOn,
        movesOnEach_eq_map]
  | counted id inner ih => exact ih h

theorem value_eval_prepared (g : Game) {rule : Rule}
    (h : ∀ table, .step (some table) ∉ rule.leaves) (s : Snapshot) :
    ((rule.prepared g).eval s).value = rule.setOn g.neighbours s := by
  rw [value_eval, moves_prepared g h, chain_prepared, Chain.id?_prepared, setOn]

theorem chains_prepared (g : Game) (rule : Rule) :
    (rule.prepared g).chains = rule.chains.map fun entry => (entry.1, entry.2.prepared g) := by
  induction rule using tree_induction
    (C := fun chain => (chain.prepared g).chains =
      chain.chains.map fun entry => (entry.1, entry.2.prepared g)) with
  | leaf own marks chain ih => exact ih
  | compound kind parts marks chain ihs ih =>
    have hparts : (parts.map (prepared g)).flatMap chains =
        parts.flatMap fun part => part.chains.map fun entry => (entry.1, entry.2.prepared g) := by
      rw [List.flatMap_map]
      exact List.flatMap_congr ihs
    simp [chains, hparts, ih, List.map_flatMap]
  | counted id inner ih => exact ih
  | absent => rfl
  | attached id follow ih => simp [Chain.chains, ih]

theorem leaves_prepared (g : Game) (rule : Rule) :
    (rule.prepared g).leaves = rule.leaves.map (Leaf.prepare g) := by
  induction rule using tree_induction
    (C := fun chain => (chain.prepared g).leaves = chain.leaves.map (Leaf.prepare g)) with
  | leaf own marks chain ih => exact congrArg (own.prepare g :: ·) ih
  | compound kind parts marks chain ihs ih =>
    have hparts : (parts.map (prepared g)).flatMap leaves =
        parts.flatMap fun part => part.leaves.map (Leaf.prepare g) := by
      rw [List.flatMap_map]
      exact List.flatMap_congr ihs
    simp [leaves, hparts, ih, List.map_flatMap]
  | counted id inner ih => exact ih
  | absent => rfl
  | attached id follow ih => exact ih

theorem leaves_subset_of_mem_chains {rule : Rule} {entry : ChainId × Rule}
    (h : entry ∈ rule.chains) : entry.2.leaves ⊆ rule.leaves :=
  leaves_subset_of_reaches (reaches_of_mem_chains h)

theorem customs_prepared (g : Game) (rule : Rule) :
    (rule.prepared g).customs = rule.customs.map (prepared g) := by
  induction rule using part_induction with
  | leaf own marks chain =>
    cases own with
    | custom rule => rfl
    | _ => simp [prepared_leaf, customs, Leaf.prepare, Leaf.isCustom]
  | compound kind parts marks chain ih =>
    rw [prepared_compound, customs, customs, customsAll_eq_flatMap, customsAll_eq_flatMap,
      List.map_flatMap, List.flatMap_map]
    exact List.flatMap_congr ih
  | counted id inner ih => exact ih

theorem eq_leaf_of_mem_customs {rule own : Rule} (h : own ∈ rule.customs) :
    ∃ custom marks chain, own = .leaf (.custom custom) marks chain := by
  induction rule using part_induction with
  | leaf leaf marks chain =>
    cases leaf with
    | custom custom => exact ⟨custom, marks, chain, by simpa [customs, Leaf.isCustom] using h⟩
    | _ => simp [customs, Leaf.isCustom] at h
  | compound kind parts marks chain ih =>
    rw [customs, customsAll_eq_flatMap] at h
    obtain ⟨part, hpart, hown⟩ := List.mem_flatMap.mp h
    exact ih part hpart hown
  | counted id inner ih => exact ih h

theorem faithful_prepared (g : Game) {rule : Rule} (h : ∀ own ∈ rule.customs, own.Faithful) :
    (rule.prepared g).Faithful := by
  refine faithful_of_customs fun own hown => ?_
  rw [customs_prepared] at hown
  obtain ⟨custom, hcustom, rfl⟩ := List.mem_map.mp hown
  obtain ⟨leaf, marks, chain, rfl⟩ := eq_leaf_of_mem_customs hcustom
  intro s
  have hlaw := h _ hcustom s
  simpa [cursor, Cursor.remaining, Leaf.prepare, Move.stamp_prepared] using hlaw

end Rule

namespace Compiled

/-- A tree without tables, compiled for a game, has the moves of the reference for that game. The
chains keep their identities and their order, and each evaluates to the reference of its rule. No
step rule is left without a table. -/
theorem compile_eq_reference (g : Game) {rule : Rule}
    (h : ∀ table, .step (some table) ∉ rule.leaves) :
    (∀ s, ((compile g rule).value.legalMoves s).value = rule.setOn g.neighbours s) ∧
      ((compile g rule).value.root.chains.map fun entry =>
        (entry.1, fun s => (entry.2.eval s).value)) =
        (rule.chains.map fun entry => (entry.1, entry.2.setOn g.neighbours)) ∧
      .step none ∉ (compile g rule).value.root.leaves := by
  rw [root_compile]
  refine ⟨fun s => rule.value_eval_prepared g h s, ?_, ?_⟩
  · rw [rule.chains_prepared g, List.map_map]
    refine List.map_congr_left fun entry hentry => ?_
    have hfollow : ∀ table, .step (some table) ∉ entry.2.leaves := fun table htable =>
      h table (Rule.leaves_subset_of_mem_chains hentry htable)
    have hsets : (fun s => ((entry.2.prepared g).eval s).value) = entry.2.setOn g.neighbours := by
      funext s
      exact entry.2.value_eval_prepared g hfollow s
    exact congrArg (Prod.mk entry.1) hsets
  · rw [rule.leaves_prepared g]
    intro hnone
    obtain ⟨own, _, hown⟩ := List.mem_map.mp hnone
    exact own.prepare_ne_step_none g hown

def threeSteps : Rule :=
  .ofParts .priority
    [.ofParts .union [],
      .leaf (.step none) {} (.attached ⟨0⟩
        (.ofParts .union [.leaf (.step none) {} (.attached ⟨1⟩ (.ofLeaf (.step none)))]))]

def lineOfThree : Game where
  config := { name := "line", players := 2, sites := 3, adjacency := #[[⟨1⟩], [⟨0⟩, ⟨2⟩], [⟨1⟩]] }
  faultless := by decide

theorem compile_eq_reference_threeSteps :
    (∀ table, .step (some table) ∉ threeSteps.leaves) ∧ threeSteps.chains.length = 2 ∧
      ((compile lineOfThree threeSteps).value.legalMoves
        { players := 2, board := #[none, some ⟨0⟩, none], players_bounds := by decide }).value =
        ⟨[{ Move.step ⟨0⟩ ⟨1⟩ ⟨0⟩ with chains := [⟨0⟩] },
          { Move.step ⟨0⟩ ⟨1⟩ ⟨2⟩ with chains := [⟨0⟩] }], none⟩ := by
  have hfresh : ∀ table, .step (some table) ∉ threeSteps.leaves := by
    simp [threeSteps, Rule.leaves, Rule.ofParts, Rule.ofLeaf, Chain.leaves]
  exact ⟨hfresh, rfl, ((compile_eq_reference lineOfThree hfresh).1 _).trans rfl⟩

end Compiled
end LegalMoves
