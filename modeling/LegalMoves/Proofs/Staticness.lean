import LegalMoves.Proofs.Existence
import LegalMoves.Proofs.Reachability
import LegalMoves.Rule.Analysis

set_option autoImplicit false

/-!
Static trees yield the same moves in every snapshot. A leaf that reads the snapshot passes for static
when its chain is; a tree without such a leaf is static only if all its leaves list their moves, those
in its chains included. Nobody asks what the chains do that came with the listed moves.
-/
namespace LegalMoves

def Leaf.isFixed : Leaf → Bool
  | .listed _ _ _ => true
  | .pass | .place | .step _ | .custom _ => false

/-- Whether the staticness of a rule is that of its chain, whatever its own moves depend on. -/
def Rule.delegates : Rule → Bool
  | .leaf own _ (.attached _ _) => !own.isFixed
  | .leaf _ _ .absent | .compound _ _ _ _ | .counted _ _ => false

/-- A static rule whose staticness, and that of all rules under it, is not only that of a chain. -/
structure Rule.Steady (rule : Rule) : Prop where
  free : ∀ node, rule.Reaches node → node.delegates = false
  static : rule.isStatic = true

/-- A rule says the same in two snapshots: its moves with their marks and chains, the moves that its
cursor streams, and the sites that it can move to. -/
structure Rule.SameIn (s t : Snapshot) (rule : Rule) : Prop where
  eval : (rule.eval s).value = (rule.eval t).value
  stream : (rule.cursor s).value.remaining = (rule.cursor t).value.remaining
  canMoveTo : ∀ target, (rule.canMoveTo target s).value = (rule.canMoveTo target t).value

namespace Leaf

theorem moves_of_isFixed {own : Leaf} (h : own.isFixed = true) (s t : Snapshot) :
    own.moves s = own.moves t := by
  cases own with
  | listed ms declared carried => rfl
  | _ => simp [isFixed] at h

theorem exists_eq_listed {own : Leaf} (h : own.isFixed = true) :
    ∃ ms declared carried, own = .listed ms declared carried := by
  cases own with
  | listed ms declared carried => exact ⟨ms, declared, carried, rfl⟩
  | _ => simp [isFixed] at h

theorem isCustom_of_isFixed {own : Leaf} (h : own.isFixed = true) : own.isCustom = false := by
  cases own with
  | custom rule => simp [isFixed] at h
  | _ => rfl

end Leaf

namespace Rule

theorem isStatic_leaf (own : Leaf) (marks : Marks) (chain : Chain) :
    (Rule.leaf own marks chain).isStatic = chain.isStatic own.isFixed := by
  cases own <;> rfl

theorem isStatic_of_holds {rule next : Rule} (h : rule.Holds next)
    (hstatic : rule.isStatic = true) : next.isStatic = true := by
  cases h with
  | part hmem =>
    rw [isStatic, allStatic_eq_all, Bool.and_eq_true, List.all_eq_true] at hstatic
    exact hstatic.1 next hmem
  | inner => exact hstatic
  | leafChain =>
    rw [isStatic_leaf] at hstatic
    exact hstatic
  | compoundChain =>
    rw [isStatic, Bool.and_eq_true] at hstatic
    exact hstatic.2

theorem isStatic_of_reaches {rule node : Rule} (h : rule.Reaches node)
    (hstatic : rule.isStatic = true) : node.isStatic = true := by
  induction h with
  | refl => exact hstatic
  | tail _ hstep ih => exact isStatic_of_holds hstep ih

theorem Steady.of_reaches {rule node : Rule} (h : rule.Steady) (hreach : rule.Reaches node) :
    node.Steady :=
  ⟨fun _ hdeep => h.free _ (hreach.trans hdeep), isStatic_of_reaches hreach h.static⟩

theorem Steady.isFixed {rule : Rule} (h : rule.Steady) :
    ∀ own ∈ rule.leaves, own.isFixed = true := by
  intro own hown
  obtain ⟨marks, chain, hreach⟩ := mem_leaves_iff.mp hown
  have hleaf := (h.of_reaches hreach).static
  have hself := h.free _ hreach
  -- With a chain the staticness of the leaf says nothing of the leaf itself.
  cases chain with
  | absent =>
    rw [isStatic_leaf] at hleaf
    exact hleaf
  | attached id follow => simpa [delegates] using hself

theorem moves_of_isFixed {rule : Rule} (h : ∀ own ∈ rule.leaves, own.isFixed = true)
    (s t : Snapshot) : rule.moves s = rule.moves t := by
  induction rule using part_induction with
  | leaf own marks chain =>
    rw [moves_leaf, moves_leaf, Leaf.moves_of_isFixed (h own (by simp [leaves])) s t]
  | compound kind parts marks chain ih =>
    have hparts : parts.map (·.moves s) = parts.map (·.moves t) := by
      refine List.map_congr_left fun part hmem => ih part hmem fun own hown => ?_
      exact h own (leaves_subset_of_mem_parts hmem hown)
    cases kind with
    | union => rw [moves_union, moves_union, List.flatMap_def, List.flatMap_def, hparts]
    | priority => rw [moves_priority, moves_priority, hparts]
  | counted id inner ih => exact ih h

theorem customs_of_isFixed {rule : Rule} (h : ∀ own ∈ rule.leaves, own.isFixed = true) :
    rule.customs = [] := by
  induction rule using part_induction with
  | leaf own marks chain =>
    have hown := Leaf.isCustom_of_isFixed (h own (by simp [leaves]))
    simp [customs, hown]
  | compound kind parts marks chain ih =>
    rw [customs, customsAll_eq_flatMap, List.flatMap_eq_nil_iff]
    intro part hmem
    exact ih part hmem fun own hown => h own (leaves_subset_of_mem_parts hmem hown)
  | counted id inner ih => exact ih h

theorem sameIn_of_isFixed {rule : Rule} (h : ∀ own ∈ rule.leaves, own.isFixed = true)
    (s t : Snapshot) : rule.SameIn s t := by
  have hmoves := moves_of_isFixed h s t
  have hfaithful : rule.Faithful := faithful_of_customs (by simp [customs_of_isFixed h])
  exact {
    eval := by rw [value_eval, value_eval, hmoves]
    stream := by rw [hfaithful s, hfaithful t, hmoves]
    canMoveTo := fun target => by
      rw [hfaithful.value_canMoveTo, hfaithful.value_canMoveTo, hmoves] }

theorem Steady.sameIn {rule : Rule} (h : rule.Steady) (s t : Snapshot) : rule.SameIn s t :=
  sameIn_of_isFixed h.isFixed s t

/-- A static tree in which no leaf delegates says the same in any two snapshots, and so does every
chain in it, be it of the tree, of a chain of it or deeper. A move of the tree triggers such chains,
and those that a listed move had when it was listed: all of them are found if the leaves carry the
chains that their moves name. A chain that comes with a listed move is not part of what makes the
tree static. It says the same in both snapshots too if it is static by itself. -/
theorem isStatic_sound {rule : Rule} (h : rule.Steady) (s t : Snapshot) :
    rule.SameIn s t ∧
      (∀ entry ∈ rule.chains, entry.2.SameIn s t) ∧
      (∀ m ∈ (rule.eval s).value.moves, ∀ place id, m.chains[place]? = some id →
        (∃ follow, rule.consequent? m place = some follow ∧ (id, follow) ∈ rule.chains) ∨
          ∃ ms declared carried, rule.ReachesLeaf (.listed ms declared carried) ∧
            ∃ raw ∈ ms, id ∈ raw.chains) ∧
      ((∀ own ∈ rule.leaves, own.CarriesChains) →
        ∀ m ∈ (rule.eval s).value.moves, ∀ place < m.chains.length,
          ∃ follow, rule.consequent? m place = some follow) ∧
      ∀ m place follow, rule.consequent? m place = some follow →
        (∃ id, (id, follow) ∈ rule.chains) ∨ follow.Steady → follow.SameIn s t := by
  have hchains : ∀ entry ∈ rule.chains, entry.2.SameIn s t := fun entry hentry =>
    (h.of_reaches (reaches_of_mem_chains hentry)).sameIn s t
  refine ⟨h.sameIn s t, hchains, fun m hm place id hid => ?_,
    fun hcarries m hm place hplace => ?_, ?_⟩
  · rcases held_or_raw_of_mem_chains hm (List.mem_of_getElem? hid) with
      ⟨follow, hmem⟩ | ⟨own, hown, raw, hraw, hraw_id⟩
    · obtain ⟨held, hfollow, hheld⟩ := follow?_of_mem_chains hmem
      exact Or.inl ⟨held, by simp [consequent?, hid, hfollow], hheld⟩
    · obtain ⟨ms, declared, carried, rfl⟩ :=
        Leaf.exists_eq_listed (h.isFixed own hown)
      exact Or.inr ⟨ms, declared, carried, mem_leaves_iff.mp hown, raw, hraw, hraw_id⟩
  · obtain ⟨follow, hfollow⟩ := exists_follow? hcarries hm (List.getElem_mem hplace)
    exact ⟨follow, by simp [consequent?, hplace, hfollow]⟩
  · rintro m place follow - (⟨id, hheld⟩ | hsteady)
    · exact hchains _ hheld
    · exact hsteady.sameIn s t

def menu : Rule :=
  .ofParts .priority
    [.ofParts .union [],
      .leaf (.listed [Move.select ⟨0⟩ ⟨1⟩, { Move.pass ⟨0⟩ with chains := [⟨2⟩] }] ∅
          [.attached ⟨2⟩ (.ofLeaf (.fixed [Move.select ⟨0⟩ ⟨4⟩] ∅))]) { decision := true }
        (.attached ⟨0⟩ (.compound .union [.ofLeaf (.fixed [Move.pass ⟨1⟩] ∅)] {}
          (.attached ⟨1⟩ (.ofLeaf (.fixed [Move.select ⟨1⟩ ⟨3⟩] ∅)))))]

theorem steady_ofLeaf_listed (ms : List Move) (declared : Capabilities) (carried : List Chain) :
    (ofLeaf (.listed ms declared carried)).Steady := by
  refine ⟨fun node h => ?_, rfl⟩
  rcases reaches_leaf_iff.mp h with rfl | hchain
  · rfl
  · exact absurd hchain (Chain.not_reaches_absent node)

theorem steady_menu : menu.Steady := by
  refine ⟨fun node h => ?_, rfl⟩
  simp only [menu, ofParts, ofLeaf, reaches_compound_iff, reaches_leaf_iff, List.mem_cons,
    List.not_mem_nil, or_false, exists_eq_or_imp, exists_eq_left, Chain.reaches_attached,
    Chain.not_reaches_absent, false_and, exists_false] at h
  rcases h with rfl | rfl | rfl | rfl | rfl | rfl <;> rfl

def twoEmptySites : Snapshot :=
  { players := 4, board := #[none, none], players_bounds := by decide }

def twoOfThreeTaken : Snapshot :=
  { players := 6, board := #[some ⟨2⟩, none, some ⟨0⟩], mover := ⟨1⟩, players_bounds := by decide }

theorem isStatic_sound_menu :
    menu.Steady ∧ (∀ own ∈ menu.leaves, own.CarriesChains) ∧
      menu.SameIn twoEmptySites twoOfThreeTaken ∧
      ∃ follow, menu.consequent? { Move.pass ⟨0⟩ with decision := true, chains := [⟨2⟩, ⟨0⟩] } 0 =
          some follow ∧ follow.Steady ∧ follow.SameIn twoEmptySites twoOfThreeTaken := by
  have hcarries : ∀ own ∈ menu.leaves, own.CarriesChains := by
    intro own hown s m hm id hid
    simp only [menu, ofParts, ofLeaf, leaves, leavesAll, Chain.leaves, List.append_nil,
      List.nil_append, List.cons_append, List.mem_cons, List.not_mem_nil, or_false] at hown
    rcases hown with rfl | rfl | rfl
    · rcases List.mem_cons.mp hm with rfl | hlast
      · exact absurd hid List.not_mem_nil
      · obtain rfl := List.mem_singleton.mp hlast
        obtain rfl : id = ⟨2⟩ := List.mem_singleton.mp hid
        exact ⟨_, List.mem_cons_self⟩
    · obtain rfl := List.mem_singleton.mp hm
      exact absurd hid List.not_mem_nil
    · obtain rfl := List.mem_singleton.mp hm
      exact absurd hid List.not_mem_nil
  have hpass : { Move.pass ⟨0⟩ with decision := true, chains := [⟨2⟩, ⟨0⟩] } ∈
      (menu.eval twoEmptySites).value.moves := by decide +kernel
  obtain ⟨hsame, -, -, hfound, hdeep⟩ := isStatic_sound steady_menu twoEmptySites twoOfThreeTaken
  obtain ⟨follow, hfollow⟩ := hfound hcarries _ hpass 0 (by decide)
  have hsteady : follow.Steady := by
    obtain rfl : _ = follow := Option.some.inj hfollow
    exact steady_ofLeaf_listed _ _ _
  exact ⟨steady_menu, hcarries, hsame, follow, hfollow, hsteady,
    hdeep _ 0 follow hfollow (Or.inr hsteady)⟩

/-- A pass that is followed by a piece on an empty site. -/
def passThenPlace : Rule := .leaf .pass {} (.attached ⟨0⟩ (.ofLeaf .place))

/-- The moves that the pass has on a board of two empty sites, listed. They keep their chain. -/
def passReplayed : Rule :=
  .ofLeaf (.listed (passThenPlace.moves twoEmptySites) ∅ [passThenPlace.chain])

/-- The chain that a listed move brings along can have other moves in another snapshot, though the
tree is static and no leaf of it delegates: a list of moves is not asked what their chains do. -/
theorem chain_of_passReplayed_varies :
    passReplayed.Steady ∧ (∀ own ∈ passReplayed.leaves, own.CarriesChains) ∧
      (passReplayed.eval twoOfThreeTaken).value.moves =
        [{ Move.pass ⟨0⟩ with chains := [⟨0⟩] }] ∧
      (passReplayed.evalChain? { Move.pass ⟨0⟩ with chains := [⟨0⟩] } 0 twoEmptySites).map
          (·.value.moves) = some [Move.add ⟨0⟩ ⟨0⟩, Move.add ⟨0⟩ ⟨1⟩] ∧
      (passReplayed.evalChain? { Move.pass ⟨0⟩ with chains := [⟨0⟩] } 0 twoOfThreeTaken).map
          (·.value.moves) = some [Move.add ⟨1⟩ ⟨1⟩] := by
  have hcarries : ∀ own ∈ passReplayed.leaves, own.CarriesChains := by
    intro own hown s m hm id hid
    obtain rfl := List.mem_singleton.mp hown
    obtain rfl := List.mem_singleton.mp hm
    obtain rfl : id = ⟨0⟩ := List.mem_singleton.mp hid
    exact ⟨_, List.mem_cons_self⟩
  exact ⟨steady_ofLeaf_listed _ _ _, hcarries, by decide +kernel, by decide +kernel,
    by decide +kernel⟩

end Rule
end LegalMoves
