import LegalMoves.Proofs.Capabilities
import LegalMoves.Proofs.Preparation
import LegalMoves.Proofs.Staticness

set_option autoImplicit false

namespace LegalMoves

@[simp] theorem Leaf.isFixed_prepare (g : Game) (own : Leaf) :
    (own.prepare g).isFixed = own.isFixed := by
  cases own <;> rfl

namespace Rule

variable {rule : Rule} {table : Array (List Site)} {i : Nat}

/-- The tree after it is prepared for some games, one after the other. -/
def preparedFor (games : List Game) (rule : Rule) : Rule :=
  games.foldl (fun tree g => tree.prepared g) rule

theorem prepared_prepared (g h : Game) (rule : Rule) :
    (rule.prepared g).prepared h = rule.prepared g := by
  induction rule using tree_induction
    (C := fun chain => (chain.prepared g).prepared h = chain.prepared g) with
  | leaf own marks chain ih => simp [Leaf.prepare_prepare, ih]
  | compound kind parts marks chain ihs ih => simpa [ih] using ihs
  | counted id inner ih => simp [ih]
  | absent => rfl
  | attached id follow ih => simp [ih]

theorem preparedFor_prepared (g : Game) (later : List Game) (rule : Rule) :
    (rule.prepared g).preparedFor later = rule.prepared g := by
  induction later with
  | nil => rfl
  | cons h later ih =>
    have hstep : (rule.prepared g).preparedFor (h :: later) =
        ((rule.prepared g).prepared h).preparedFor later := rfl
    rw [hstep, prepared_prepared, ih]

theorem preparedFor_cons (g : Game) (later : List Game) (rule : Rule) :
    rule.preparedFor (g :: later) = rule.prepared g :=
  preparedFor_prepared g later rule

theorem isStatic_prepared (g : Game) (rule : Rule) :
    (rule.prepared g).isStatic = rule.isStatic := by
  induction rule using tree_induction
    (C := fun chain => ∀ fallback, (chain.prepared g).isStatic fallback = chain.isStatic fallback)
    with
  | leaf own marks chain ih => simp [isStatic_leaf, ih]
  | compound kind parts marks chain ihs ih =>
    have hparts : (parts.map (prepared g)).all isStatic = parts.all isStatic := by
      rw [List.all_map, Bool.eq_iff_iff, List.all_eq_true, List.all_eq_true]
      exact forall₂_congr fun part hmem => by rw [Function.comp_apply, ihs part hmem]
    simp [isStatic, hparts, ih]
  | counted id inner ih => exact ih
  | absent fallback => rfl
  | attached id follow ih fallback => exact ih

theorem getElem?_leaves_prepared {own : Leaf} (h : rule.leaves[i]? = some own) (g : Game) :
    (rule.prepared g).leaves[i]? = some (own.prepare g) := by
  rw [leaves_prepared, List.getElem?_map, h, Option.map_some]

theorem getElem?_leaves_preparedFor (h : rule.leaves[i]? = some (Leaf.step (some table)))
    (games : List Game) : (rule.preparedFor games).leaves[i]? = some (Leaf.step (some table)) := by
  induction games generalizing rule with
  | nil => exact h
  | cons g games ih => exact ih (getElem?_leaves_prepared h g)

theorem analysis_preparedFor (games : List Game) (rule : Rule) :
    (rule.preparedFor games).capabilities = rule.capabilities ∧
      (rule.preparedFor games).isStatic = rule.isStatic := by
  induction games generalizing rule with
  | nil => exact ⟨rfl, rfl⟩
  | cons g games ih =>
    obtain ⟨hcapabilities, hstatic⟩ := ih (rule.prepared g)
    exact ⟨hcapabilities.trans (capabilities_prepared g rule),
      hstatic.trans (isStatic_prepared g rule)⟩

/-- A tree that is prepared for some games is the tree prepared for the first of them, so it
evaluates, streams and answers alike, and so does every chain of it. Every step in it has the table
that it had before, whatever the games are, or else that of the first game; and what the tree asks for
and whether it is static are as before. -/
theorem first_game_settles (rule : Rule) (g : Game) (later : List Game) :
    rule.preparedFor (g :: later) = rule.prepared g ∧
      (∀ (i : Nat) table, rule.leaves[i]? = some (Leaf.step (some table)) →
        ∀ games, (rule.preparedFor games).leaves[i]? = some (Leaf.step (some table))) ∧
      (∀ i : Nat, rule.leaves[i]? = some (Leaf.step none) →
        (rule.preparedFor (g :: later)).leaves[i]? = some (Leaf.step (some g.table))) ∧
      ∀ games, (rule.preparedFor games).capabilities = rule.capabilities ∧
        (rule.preparedFor games).isStatic = rule.isStatic := by
  have hfirst := preparedFor_cons g later rule
  refine ⟨hfirst, fun i table h games => getElem?_leaves_preparedFor h games, fun i h => ?_,
    fun games => analysis_preparedFor games rule⟩
  rw [hfirst]
  exact getElem?_leaves_prepared h g

def triangle : Game where
  config := { name := "triangle", players := 2, sites := 3,
              adjacency := #[[⟨1⟩, ⟨2⟩], [⟨0⟩, ⟨2⟩], [⟨0⟩, ⟨1⟩]] }
  faultless := by decide

def chainedSteps : Rule :=
  .leaf (.step (some #[[⟨1⟩], [⟨0⟩]])) {} (.attached ⟨0⟩ (.ofLeaf (.step none)))

/-- On the triangle the chained step would reach the last site too. -/
theorem first_game_settles_chainedSteps :
    chainedSteps.leaves[0]? = some (Leaf.step (some #[[⟨1⟩], [⟨0⟩]])) ∧
      chainedSteps.leaves[1]? = some (Leaf.step none) ∧
      (chainedSteps.preparedFor [Compiled.lineOfThree, triangle]).leaves[0]? =
        some (.step (some #[[⟨1⟩], [⟨0⟩]])) ∧
      (chainedSteps.preparedFor [Compiled.lineOfThree, triangle]).leaves[1]? =
        some (.step (some Compiled.lineOfThree.table)) ∧
      ((chainedSteps.preparedFor [Compiled.lineOfThree, triangle]).evalChain?
          { Move.step ⟨0⟩ ⟨1⟩ ⟨0⟩ with chains := [⟨0⟩] } 0
          { players := 2, board := #[some ⟨0⟩, none, none],
            players_bounds := by decide }).map (·.value) =
        some ⟨[Move.step ⟨0⟩ ⟨0⟩ ⟨1⟩], none⟩ := by
  obtain ⟨hfirst, hkept, htaken, -⟩ :=
    first_game_settles chainedSteps Compiled.lineOfThree [triangle]
  refine ⟨rfl, rfl, hkept 0 _ rfl _, htaken 1 rfl, ?_⟩
  rw [hfirst]
  decide +kernel

end Rule
end LegalMoves
