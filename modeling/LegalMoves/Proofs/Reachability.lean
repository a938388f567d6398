import LegalMoves.Lists
import LegalMoves.Rule.Chains
import Mathlib.Logic.Relation

set_option autoImplicit false

namespace LegalMoves

/-- From a rule straight to one under it. -/
inductive Rule.Holds : Rule → Rule → Prop where
  | part {kind : Compound} {parts : List Rule} {marks : Marks} {chain : Chain} {part : Rule}
      (mem : part ∈ parts) : Rule.Holds (.compound kind parts marks chain) part
  | inner {id : String} {inner : Rule} : Rule.Holds (.counted id inner) inner
  | leafChain {own : Leaf} {marks : Marks} {id : ChainId} {follow : Rule} :
      Rule.Holds (.leaf own marks (.attached id follow)) follow
  | compoundChain {kind : Compound} {parts : List Rule} {marks : Marks} {id : ChainId}
      {follow : Rule} : Rule.Holds (.compound kind parts marks (.attached id follow)) follow

def Rule.Reaches : Rule → Rule → Prop := Relation.ReflTransGen Rule.Holds

def Chain.Reaches : Chain → Rule → Prop
  | .absent, _ => False
  | .attached _ follow, node => follow.Reaches node

/-- A rule reaches a leaf of this kind, whatever marks and chain it has. -/
def Rule.ReachesLeaf (rule : Rule) (own : Leaf) : Prop :=
  ∃ marks chain, rule.Reaches (.leaf own marks chain)

/-- Every chain that a move of the leaf names comes with the leaf. -/
def Leaf.CarriesChains (own : Leaf) : Prop :=
  ∀ s, ∀ m ∈ own.moves s, ∀ id ∈ m.chains, ∃ follow, .attached id follow ∈ own.carried

namespace Chain

@[simp] theorem not_reaches_absent (node : Rule) : ¬ Chain.absent.Reaches node := id

@[simp] theorem reaches_attached {id : ChainId} {follow node : Rule} :
    (Chain.attached id follow).Reaches node ↔ follow.Reaches node := Iff.rfl

end Chain

namespace Rule

variable {kind : Compound} {parts : List Rule} {marks : Marks} {chain : Chain} {own : Leaf}
  {id : String} {rule inner node : Rule}

theorem Reaches.refl (rule : Rule) : rule.Reaches rule := Relation.ReflTransGen.refl

theorem reaches_leaf_iff :
    (Rule.leaf own marks chain).Reaches node ↔
      node = .leaf own marks chain ∨ chain.Reaches node := by
  constructor
  · intro h
    rcases h.cases_head with rfl | ⟨next, hstep, hrest⟩
    · exact Or.inl rfl
    · cases hstep
      exact Or.inr hrest
  · rintro (rfl | h)
    · exact Reaches.refl _
    · cases chain with
      | absent => exact absurd h (Chain.not_reaches_absent node)
      | attached id follow => exact Relation.ReflTransGen.head .leafChain h

theorem reaches_compound_iff :
    (Rule.compound kind parts marks chain).Reaches node ↔
      node = .compound kind parts marks chain ∨ (∃ part ∈ parts, part.Reaches node) ∨
        chain.Reaches node := by
  constructor
  · intro h
    rcases h.cases_head with rfl | ⟨next, hstep, hrest⟩
    · exact Or.inl rfl
    · cases hstep with
      | part hmem => exact Or.inr (Or.inl ⟨next, hmem, hrest⟩)
      | compoundChain => exact Or.inr (Or.inr hrest)
  · rintro (rfl | ⟨part, hmem, h⟩ | h)
    · exact Reaches.refl _
    · exact Relation.ReflTransGen.head (.part hmem) h
    · cases chain with
      | absent => exact absurd h (Chain.not_reaches_absent node)
      | attached id follow => exact Relation.ReflTransGen.head .compoundChain h

theorem reaches_counted_iff :
    (Rule.counted id inner).Reaches node ↔ node = .counted id inner ∨ inner.Reaches node := by
  constructor
  · intro h
    rcases h.cases_head with rfl | ⟨next, hstep, hrest⟩
    · exact Or.inl rfl
    · cases hstep
      exact Or.inr hrest
  · rintro (rfl | h)
    · exact Reaches.refl _
    · exact Relation.ReflTransGen.head .inner h

theorem reaches_of_mem_chains {entry : ChainId × Rule} (h : entry ∈ rule.chains) :
    rule.Reaches entry.2 := by
  induction rule using tree_induction
    (C := fun chain => entry ∈ chain.chains → chain.Reaches entry.2) with
  | leaf own marks chain ih => exact reaches_leaf_iff.mpr (Or.inr (ih h))
  | compound kind parts marks chain ihs ih =>
    rw [chains, chainsAll_eq_flatMap] at h
    rw [reaches_compound_iff]
    rcases List.mem_append.mp h with hparts | hchain
    · obtain ⟨part, hmem, hentry⟩ := List.mem_flatMap.mp hparts
      exact Or.inr (Or.inl ⟨part, hmem, ihs part hmem hentry⟩)
    · exact Or.inr (Or.inr (ih hchain))
  | counted id inner ih => exact reaches_counted_iff.mpr (Or.inr (ih h))
  | absent hmem => simp [Chain.chains] at hmem
  | attached id follow ih hmem =>
    rcases List.mem_cons.mp hmem with rfl | hdeep
    · exact Reaches.refl _
    · exact ih hdeep

theorem mem_of_follow? {id : ChainId} {follow : Rule} (h : rule.follow? id = some follow) :
    (id, follow) ∈ rule.chains ∨ (id, follow) ∈ rule.brought :=
  List.mem_append.mp (List.mem_of_lookup_eq_some h)

/-- A chain that the tree holds is found there, not among those that moves bring along. -/
theorem follow?_of_mem_chains {id : ChainId} {follow : Rule} (h : (id, follow) ∈ rule.chains) :
    ∃ held, rule.follow? id = some held ∧ (id, held) ∈ rule.chains := by
  have hfound : (rule.chains.lookup id).isSome :=
    List.lookup_isSome_iff.mpr ⟨_, h, beq_self_eq_true id⟩
  obtain ⟨held, hheld⟩ := Option.isSome_iff_exists.mp hfound
  have hfollow : rule.follow? id = some held := by
    rw [follow?, List.lookup_append, hheld, Option.some_or]
  exact ⟨held, hfollow, List.mem_of_lookup_eq_some hheld⟩

theorem mem_of_consequent? {m : Move} {place : Nat} {follow : Rule}
    (h : rule.consequent? m place = some follow) :
    ∃ id, (id, follow) ∈ rule.chains ∨ (id, follow) ∈ rule.brought := by
  obtain ⟨id, _, hfollow⟩ := Option.bind_eq_some_iff.mp h
  exact ⟨id, mem_of_follow? hfollow⟩

theorem leaves_subset_of_reaches (h : rule.Reaches node) : node.leaves ⊆ rule.leaves := by
  induction h using Relation.ReflTransGen.head_induction_on with
  | refl => exact List.Subset.refl _
  | head hstep _ ih =>
    refine List.Subset.trans ih ?_
    cases hstep with
    | part hmem =>
      rw [leaves, leavesAll_eq_flatMap]
      exact List.subset_append_of_subset_left _ fun own hown =>
        List.mem_flatMap.mpr ⟨_, hmem, hown⟩
    | inner => exact List.Subset.refl _
    | leafChain => exact List.subset_cons_self _ _
    | compoundChain => exact List.subset_append_right _ _

theorem forall_leaves_of_consequent? {P : Leaf → Prop} {m : Move} {place : Nat} {follow : Rule}
    (hfollow : rule.consequent? m place = some follow) (h : ∀ own ∈ rule.leaves, P own)
    (hbrought : ∀ entry ∈ rule.brought, ∀ own ∈ entry.2.leaves, P own) :
    ∀ own ∈ follow.leaves, P own := by
  obtain ⟨id, hmem | hmem⟩ := mem_of_consequent? hfollow
  · exact fun own hown => h own (leaves_subset_of_reaches (reaches_of_mem_chains hmem) hown)
  · exact hbrought _ hmem

theorem leaves_subset_of_mem_parts {part : Rule} (h : part ∈ parts) :
    part.leaves ⊆ (Rule.compound kind parts marks chain).leaves :=
  leaves_subset_of_reaches (Relation.ReflTransGen.single (.part h))

theorem mem_leaves_iff : own ∈ rule.leaves ↔ rule.ReachesLeaf own := by
  constructor
  · intro h
    induction rule using tree_induction
      (C := fun chain => own ∈ chain.leaves →
        ∃ marks chain', chain.Reaches (.leaf own marks chain')) with
    | leaf leaf marks chain ih =>
      rcases List.mem_cons.mp h with rfl | hchain
      · exact ⟨marks, chain, Reaches.refl _⟩
      · obtain ⟨marks', chain', hreach⟩ := ih hchain
        exact ⟨marks', chain', reaches_leaf_iff.mpr (Or.inr hreach)⟩
    | compound kind parts marks chain ihs ih =>
      rw [leaves, leavesAll_eq_flatMap] at h
      rcases List.mem_append.mp h with hparts | hchain
      · obtain ⟨part, hmem, hown⟩ := List.mem_flatMap.mp hparts
        obtain ⟨marks', chain', hreach⟩ := ihs part hmem hown
        exact ⟨marks', chain', reaches_compound_iff.mpr (Or.inr (Or.inl ⟨part, hmem, hreach⟩))⟩
      · obtain ⟨marks', chain', hreach⟩ := ih hchain
        exact ⟨marks', chain', reaches_compound_iff.mpr (Or.inr (Or.inr hreach))⟩
    | counted id inner ih =>
      obtain ⟨marks', chain', hreach⟩ := ih h
      exact ⟨marks', chain', reaches_counted_iff.mpr (Or.inr hreach)⟩
    | absent hmem => simp [Chain.leaves] at hmem
    | attached id follow ih hmem => exact ih hmem
  · rintro ⟨marks, chain, hreach⟩
    exact leaves_subset_of_reaches hreach (by simp [leaves])

theorem brought_subset_of_reaches (h : rule.Reaches node) : node.brought ⊆ rule.brought := by
  induction h using Relation.ReflTransGen.head_induction_on with
  | refl => exact List.Subset.refl _
  | head hstep _ ih =>
    refine List.Subset.trans ih ?_
    cases hstep with
    | part hmem =>
      rw [brought, broughtAll_eq_flatMap]
      exact List.subset_append_of_subset_left _ fun entry hentry =>
        List.mem_flatMap.mpr ⟨_, hmem, hentry⟩
    | inner => exact List.Subset.refl _
    | leafChain => exact List.subset_append_right _ _
    | compoundChain => exact List.subset_append_right _ _

theorem brought_subset_of_mem_leaves (h : own ∈ rule.leaves) : own.brought ⊆ rule.brought := by
  obtain ⟨marks, chain, hreach⟩ := mem_leaves_iff.mp h
  exact List.Subset.trans (List.subset_append_left _ _) (brought_subset_of_reaches hreach)

theorem raw_or_own_of_mem_stamp {id : ChainId} {raw : Move}
    (h : id ∈ (raw.stamp marks chain).chains) :
    id ∈ raw.chains ∨ ∃ follow, (id, follow) ∈ chain.chains := by
  rcases List.mem_append.mp h with hraw | hown
  · exact Or.inl hraw
  · cases chain with
    | absent => simp [Chain.id?] at hown
    | attached key follow =>
      obtain rfl : id = key := by simpa [Chain.id?] using hown
      exact Or.inr ⟨follow, List.mem_cons_self⟩

/-- A move names the chains of rules on its way and those that it had at its leaf. -/
theorem held_or_raw_of_mem_chains {s : Snapshot} {m : Move} (hm : m ∈ rule.moves s) {id : ChainId}
    (hid : id ∈ m.chains) :
    (∃ follow, (id, follow) ∈ rule.chains) ∨
      ∃ own ∈ rule.leaves, ∃ raw ∈ own.moves s, id ∈ raw.chains := by
  induction rule using part_induction generalizing m with
  | leaf own marks chain =>
    rw [moves_leaf] at hm
    obtain ⟨raw, hraw, rfl⟩ := List.mem_map.mp hm
    rcases raw_or_own_of_mem_stamp hid with hraw_id | hchain
    · exact Or.inr ⟨own, List.mem_cons_self, raw, hraw, hraw_id⟩
    · exact Or.inl hchain
  | compound kind parts marks chain ih =>
    obtain ⟨part, hmem, raw, hraw, rfl⟩ := exists_part_of_mem_moves hm
    rw [chains, chainsAll_eq_flatMap]
    rcases raw_or_own_of_mem_stamp hid with hraw_id | ⟨follow, hchain⟩
    · rcases ih part hmem hraw hraw_id with ⟨follow, hheld⟩ | ⟨own, hown, hfirst⟩
      · exact Or.inl ⟨follow, List.mem_append_left _ (List.mem_flatMap.mpr ⟨part, hmem, hheld⟩)⟩
      · exact Or.inr ⟨own, leaves_subset_of_mem_parts hmem hown, hfirst⟩
    · exact Or.inl ⟨follow, List.mem_append_right _ hchain⟩
  | counted id inner ih => exact ih hm hid

theorem exists_follow? (h : ∀ own ∈ rule.leaves, own.CarriesChains) {s : Snapshot} {m : Move}
    (hm : m ∈ rule.moves s) {id : ChainId} (hid : id ∈ m.chains) :
    ∃ follow, rule.follow? id = some follow := by
  have hfound : ∃ follow, (id, follow) ∈ rule.chains ++ rule.brought := by
    rcases held_or_raw_of_mem_chains hm hid with ⟨follow, hheld⟩ | ⟨own, hown, raw, hraw, hraw_id⟩
    · exact ⟨follow, List.mem_append_left _ hheld⟩
    · obtain ⟨follow, hcarried⟩ := h own hown s raw hraw id hraw_id
      have hentry : (id, follow) ∈ own.brought := by
        rw [Leaf.brought_eq_entries, Chain.entries_eq_flatMap]
        exact List.mem_flatMap.mpr ⟨_, hcarried, List.mem_cons_self⟩
      exact ⟨follow, List.mem_append_right _ (brought_subset_of_mem_leaves hown hentry)⟩
  obtain ⟨follow, hmem⟩ := hfound
  rw [follow?, ← Option.isSome_iff_exists, List.lookup_isSome_iff]
  exact ⟨_, hmem, beq_self_eq_true id⟩

end Rule
end LegalMoves
