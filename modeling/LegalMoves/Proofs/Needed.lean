import LegalMoves.Lists
import LegalMoves.Proofs.Flow
import LegalMoves.Rule.Chains

set_option autoImplicit false

/-!
The part of a tree that its first moves need. The rules that are left out could be any rules, also
such as break their law: the tree yields the same first moves with the same events.
-/
namespace LegalMoves

/-- The chain with its identity, but with a rule in it that has no moves. -/
def Chain.hollow : Chain → Chain
  | .absent => .absent
  | .attached id _ => .attached id (.ofParts .union [])

mutual

/-- What is left of a tree without the rules that its first `n` moves do not depend on: in a union
the parts after the one that yields the `n`-th move, in a priority those after the first part with
moves, and whatever is in a chain. -/
def Rule.needed (s : Snapshot) : Nat → Rule → Rule
  | _, .leaf own marks chain => .leaf own marks chain.hollow
  | n, .compound .union parts marks chain =>
    .compound .union (Rule.neededUntil s n parts) marks chain.hollow
  | n, .compound .priority parts marks chain =>
    .compound .priority (Rule.neededFirst s n parts) marks chain.hollow
  | n, .counted id inner => .counted id (inner.needed s n)

def Rule.neededUntil (s : Snapshot) : Nat → List Rule → List Rule
  | _, [] => []
  | n, rule :: rules =>
    rule.needed s n ::
      if n ≤ (rule.moves s).length then []
      else Rule.neededUntil s (n - (rule.moves s).length) rules

def Rule.neededFirst (s : Snapshot) : Nat → List Rule → List Rule
  | _, [] => []
  | n, rule :: rules =>
    rule.needed s n :: if rule.moves s = [] then Rule.neededFirst s n rules else []

end

theorem Move.stamp_hollow (marks : Marks) (chain : Chain) :
    Move.stamp marks chain.hollow = Move.stamp marks chain := by
  cases chain with
  | absent => rfl
  | attached id rule => rfl

theorem Chain.counters_hollow (chain : Chain) : chain.hollow.counters = [] := by
  cases chain with
  | absent => rfl
  | attached id rule => rfl

namespace Rule

open MoveStream

variable {n : Nat} {rule : Rule} {parts : List Rule} {s : Snapshot}

theorem take_moves_neededUntil
    (h : ∀ part ∈ parts, ∀ n, 0 < n →
      ((part.needed s n).moves s).take n = (part.moves s).take n) (hn : 0 < n) :
    ((neededUntil s n parts).flatMap (·.moves s)).take n =
      (parts.flatMap (·.moves s)).take n := by
  induction parts generalizing n with
  | nil => rfl
  | cons part parts ih =>
    have hpart := h part (by simp) n hn
    by_cases hle : n ≤ (part.moves s).length
    · simp [neededUntil, hle, hpart, List.take_append_of_le_length hle]
    · have hlt : (part.moves s).length < n := Nat.lt_of_not_le hle
      have hothers := ih (fun other hmem => h other (by simp [hmem])) (Nat.sub_pos_of_lt hlt)
      have hmoves := List.eq_of_take_eq hpart hlt
      simp [neededUntil, hle, hmoves, List.take_append, hothers]

theorem firstMoves_neededFirst
    (h : ∀ part ∈ parts, ∀ n, 0 < n →
      ((part.needed s n).moves s).take n = (part.moves s).take n) (hn : 0 < n) :
    ((((neededFirst s n parts).map (·.moves s)).find? (!·.isEmpty)).getD []).take n =
      (((parts.map (·.moves s)).find? (!·.isEmpty)).getD []).take n := by
  induction parts with
  | nil => rfl
  | cons part parts ih =>
    have hpart := h part (by simp) n hn
    have hothers := ih fun other hmem => h other (by simp [hmem])
    have hempty := List.eq_nil_iff_of_take_eq hpart hn
    by_cases hm : part.moves s = []
    · have hneeded : (part.needed s n).moves s = [] := hempty.mpr hm
      simpa [neededFirst, hm, hneeded] using hothers
    · have hneeded : (part.needed s n).moves s ≠ [] := fun hnil => hm (hempty.mp hnil)
      simp [neededFirst, hm, hneeded, hpart]

theorem take_moves_needed (rule : Rule) (hn : 0 < n) :
    ((rule.needed s n).moves s).take n = (rule.moves s).take n := by
  induction rule using part_induction generalizing n with
  | leaf own marks chain => rw [needed, moves_leaf, moves_leaf, Move.stamp_hollow]
  | compound kind parts marks chain ih =>
    cases kind with
    | union =>
      have hparts := take_moves_neededUntil (fun part hmem n hn => ih part hmem hn) hn
      rw [needed, moves_union, moves_union, Move.stamp_hollow, ← List.map_take, ← List.map_take,
        hparts]
    | priority =>
      have hparts := firstMoves_neededFirst (fun part hmem n hn => ih part hmem hn) hn
      rw [needed, moves_priority, moves_priority, Move.stamp_hollow, ← List.map_take,
        ← List.map_take, hparts]
  | counted id inner ih => exact ih hn

/-- A list of parts, cut off at some place, with something less needed of each part before it. -/
inductive CutsOff (s : Snapshot) : List Rule → List Rule → Prop where
  | here (parts : List Rule) : CutsOff s parts []
  | later {parts kept : List Rule} (part : Rule) (n : Nat) :
      CutsOff s parts kept → CutsOff s (part :: parts) (part.needed s n :: kept)

theorem cutsOff_neededUntil (parts : List Rule) (s : Snapshot) (n : Nat) :
    CutsOff s parts (neededUntil s n parts) := by
  induction parts generalizing n with
  | nil => exact .here []
  | cons part parts ih =>
    by_cases hle : n ≤ (part.moves s).length
    · simpa [neededUntil, hle] using CutsOff.later part n (.here parts)
    · simpa [neededUntil, hle] using CutsOff.later part n (ih (n - (part.moves s).length))

theorem cutsOff_neededFirst (parts : List Rule) (s : Snapshot) (n : Nat) :
    CutsOff s parts (neededFirst s n parts) := by
  induction parts with
  | nil => exact .here []
  | cons part parts ih =>
    by_cases hm : part.moves s = []
    · simpa [neededFirst, hm] using CutsOff.later part n ih
    · simpa [neededFirst, hm] using CutsOff.later part n (.here parts)

theorem CutsOff.counters_sublist {kept : List Rule} (h : CutsOff s parts kept)
    (hparts : ∀ part ∈ parts, ∀ n, (part.needed s n).counters.Sublist part.counters) :
    (kept.flatMap counters).Sublist (parts.flatMap counters) := by
  induction h with
  | here parts => exact List.nil_sublist _
  | later part n _ ih =>
    have hpart := hparts part (by simp) n
    have hothers := ih fun other hmem => hparts other (by simp [hmem])
    rw [List.flatMap_cons, List.flatMap_cons]
    exact hpart.append hothers

theorem CutsOff.customs_nil {kept : List Rule} (h : CutsOff s parts kept)
    (hparts : ∀ part ∈ parts, ∀ n, (part.needed s n).customs = []) :
    kept.flatMap customs = [] := by
  induction h with
  | here parts => rfl
  | later part n _ ih =>
    have hpart := hparts part (by simp) n
    have hothers := ih fun other hmem => hparts other (by simp [hmem])
    rw [List.flatMap_cons, hpart, hothers]
    rfl

theorem counters_needed_sublist (rule : Rule) (s : Snapshot) (n : Nat) :
    (rule.needed s n).counters.Sublist rule.counters := by
  induction rule using part_induction generalizing n with
  | leaf own marks chain => simp [needed, counters, Chain.counters_hollow]
  | compound kind parts marks chain ih =>
    cases kind with
    | union =>
      have hparts := (cutsOff_neededUntil parts s n).counters_sublist ih
      simpa [needed, counters, Chain.counters_hollow] using
        hparts.trans (List.sublist_append_left _ _)
    | priority =>
      have hparts := (cutsOff_neededFirst parts s n).counters_sublist ih
      simpa [needed, counters, Chain.counters_hollow] using
        hparts.trans (List.sublist_append_left _ _)
  | counted id inner ih => exact (ih n).cons_cons id

theorem customs_needed (h : rule.customs = []) (s : Snapshot) (n : Nat) :
    (rule.needed s n).customs = [] := by
  induction rule using part_induction generalizing n with
  | leaf own marks chain =>
    cases hown : own.isCustom with
    | true => simp [customs, hown] at h
    | false => simp [needed, customs, hown]
  | compound kind parts marks chain ih =>
    rw [customs, customsAll_eq_flatMap, List.flatMap_eq_nil_iff] at h
    have hparts : ∀ part ∈ parts, ∀ n, (part.needed s n).customs = [] := fun part hmem n =>
      ih part hmem (h part hmem) n
    cases kind with
    | union =>
      rw [needed, customs, customsAll_eq_flatMap]
      exact (cutsOff_neededUntil parts s n).customs_nil hparts
    | priority =>
      rw [needed, customs, customsAll_eq_flatMap]
      exact (cutsOff_neededFirst parts s n).customs_nil hparts
  | counted id inner ih => exact ih h n

/-- The front of what a tree yields is the front of what its needed part yields, also if rules that
break their law are among those that are not needed. -/
def SameFront (s : Snapshot) (rule : Rule) : Prop :=
  ∀ n, 0 < n → (rule.needed s n).customs = [] →
    (rule.flow s).cut n = ((rule.needed s n).flow s).cut n

theorem take_toList_flow_needed (hn : 0 < n) (hcustoms : (rule.needed s n).customs = []) :
    ((rule.needed s n).flow s).toList.take n = (rule.moves s).take n := by
  rw [toList_flow (faithful_of_customs_nil hcustoms), take_moves_needed rule hn]

theorem SameFront.take_toList_flow (h : rule.SameFront s) (hn : 0 < n)
    (hcustoms : (rule.needed s n).customs = []) :
    (rule.flow s).toList.take n = (rule.moves s).take n := by
  rw [← toList_cut, h n hn hcustoms, toList_cut, take_toList_flow_needed hn hcustoms]

theorem cut_openAll_neededUntil (h : ∀ part ∈ parts, part.SameFront s) (hn : 0 < n)
    (hcustoms : ∀ part ∈ neededUntil s n parts, part.customs = []) :
    (openAll parts s).cut n = (openAll (neededUntil s n parts) s).cut n := by
  induction parts generalizing n with
  | nil => rfl
  | cons part parts ih =>
    have hcustom : (part.needed s n).customs = [] := hcustoms _ (by simp [neededUntil])
    have hpart := h part (by simp) n hn hcustom
    have hlist := (h part (by simp)).take_toList_flow hn hcustom
    have hneeded := take_toList_flow_needed hn hcustom
    have hlength := congrArg List.length hlist
    have hlength' := congrArg List.length hneeded
    rw [List.length_take, List.length_take] at hlength hlength'
    -- Either the front ends in this part, or the part is in the front as a whole.
    by_cases hle : n ≤ (part.moves s).length
    · rw [openAll_cons, neededUntil, if_pos hle, openAll_cons, cut_append_of_le (by omega),
        cut_append_of_le (by omega), hpart]
    · have hlt : (part.moves s).length < n := Nat.lt_of_not_le hle
      have hothers := ih (fun other hmem => h other (by simp [hmem])) (Nat.sub_pos_of_lt hlt)
        fun other hmem => hcustoms other (by simp [neededUntil, hle, hmem])
      rw [cut_of_length_lt (by omega), cut_of_length_lt (by omega)] at hpart
      rw [openAll_cons, neededUntil, if_neg hle, openAll_cons, ← hpart,
        cut_append_of_lt (by omega), cut_append_of_lt (by omega),
        List.eq_of_take_eq hlist hlt, hothers]

theorem cut_flowFirst_neededFirst (h : ∀ part ∈ parts, part.SameFront s) (hn : 0 < n)
    (hcustoms : ∀ part ∈ neededFirst s n parts, part.customs = []) :
    (flowFirst parts s).cut n = (flowFirst (neededFirst s n parts) s).cut n := by
  induction parts with
  | nil => rfl
  | cons part parts ih =>
    have hcustom : (part.needed s n).customs = [] := hcustoms _ (by simp [neededFirst])
    have hpart := h part (by simp) n hn hcustom
    have hlist := (h part (by simp)).take_toList_flow hn hcustom
    have hneeded := take_toList_flow_needed hn hcustom
    have hempty := List.eq_nil_iff_of_take_eq hlist hn
    have hempty' := List.eq_nil_iff_of_take_eq hneeded hn
    by_cases hm : part.moves s = []
    · have hothers := ih (fun other hmem => h other (by simp [hmem]))
        fun other hmem => hcustoms other (by simp [neededFirst, hm, hmem])
      have hflow : (part.flow s).toList = [] := hempty.mpr hm
      have hflow' : ((part.needed s n).flow s).toList = [] := hempty'.mpr hm
      rw [cut_of_length_lt (by simp [hflow, hn]), cut_of_length_lt (by simp [hflow', hn])] at hpart
      rw [flowFirst_cons, if_pos hflow, neededFirst, if_pos hm, flowFirst_cons, if_pos hflow',
        ← hpart, cut_append_of_lt (by simp [hflow, hn]), cut_append_of_lt (by simp [hflow, hn])]
      simp [hflow, hothers]
    · have hflow : (part.flow s).toList ≠ [] := fun hnil => hm (hempty.mp hnil)
      have hflow' : ((part.needed s n).flow s).toList ≠ [] := fun hnil => hm (hempty'.mp hnil)
      rw [flowFirst_cons, if_neg hflow, neededFirst, if_neg hm, flowFirst_cons, if_neg hflow',
        hpart]

theorem sameFront (rule : Rule) (s : Snapshot) : rule.SameFront s := by
  induction rule using part_induction with
  | leaf own marks chain =>
    intro n hn _
    rw [needed, flow_leaf, flow_leaf, Move.stamp_hollow]
  | compound kind parts marks chain ih =>
    intro n hn hcustoms
    cases kind with
    | union =>
      rw [needed, customs, customsAll_eq_flatMap, List.flatMap_eq_nil_iff] at hcustoms
      rw [needed, flow_union, flow_union, Move.stamp_hollow, cut_map, cut_map,
        cut_openAll_neededUntil ih hn hcustoms]
    | priority =>
      rw [needed, customs, customsAll_eq_flatMap, List.flatMap_eq_nil_iff] at hcustoms
      rw [needed, flow_priority, flow_priority, Move.stamp_hollow, cut_map, cut_map,
        cut_flowFirst_neededFirst ih hn hcustoms]
  | counted id inner ih =>
    intro n hn hcustoms
    have hinner := ih n hn hcustoms
    -- A counted rule is opened before its first move, so only a front with a move shows it.
    obtain ⟨n, rfl⟩ := Nat.exists_eq_add_one_of_ne_zero (Nat.ne_zero_of_lt hn)
    rw [needed, flow_counted, flow_counted]
    simp only [cut, cut_counted, hinner]

end Rule
end LegalMoves
