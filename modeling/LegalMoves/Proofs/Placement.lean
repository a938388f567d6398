import LegalMoves.Proofs.Enumeration
import LegalMoves.Snapshot.Hash
import Mathlib.Data.List.Nodup

set_option autoImplicit false

namespace LegalMoves
namespace Snapshot

def emptySites (s : Snapshot) : List Site := s.sites.filter s.isEmpty

/-- The empty sites, then the sites of each player that there can be. -/
def holdings (s : Snapshot) : List (List Site) :=
  s.emptySites :: (List.range UInt8.size).map fun p => s.sitesOf (Player.ofNat p)

/-- Each site of the board is in exactly one of the lists, once. -/
structure Partitioned (s : Snapshot) : Prop where
  ascending : ∀ sites ∈ s.holdings, sites.Pairwise (· < ·)
  disjoint : s.holdings.Pairwise List.Disjoint
  once : ∀ site, s.holdings.flatten.count site = if site.toNat < s.siteCount then 1 else 0

variable {s t : Snapshot} {players sites : Nat}

theorem owner_of_mem_emptySites {site : Site} (h : site ∈ s.emptySites) : s.owner site = none :=
  (isEmpty_iff.mp (List.mem_filter.mp h).2).2

theorem pairwise_of_mem_holdings (h : s.siteCount < UInt32.size) :
    ∀ sites ∈ s.holdings, sites.Pairwise (· < ·) := by
  intro sites hmem
  rw [holdings, List.mem_cons, List.mem_map] at hmem
  obtain rfl | ⟨p, -, rfl⟩ := hmem
  · exact (listsExactly_filter_isEmpty h).ascending
  · exact pairwise_sitesOf (Nat.le_of_lt h) _

theorem disjoint_holdings (h : s.siteCount < UInt32.size) : s.holdings.Pairwise List.Disjoint := by
  have hle := Nat.le_of_lt h
  have hof := fun (p : Nat) (site : Site) => @mem_sitesOf_iff s (Player.ofNat p) site hle
  rw [holdings, List.pairwise_cons]
  constructor
  · intro sites hmem site hempty hsite
    obtain ⟨p, -, rfl⟩ := List.mem_map.mp hmem
    rw [hof, owner_of_mem_emptySites hempty] at hsite
    cases hsite
  · refine List.pairwise_map.mpr (List.pairwise_lt_range.imp_of_mem fun {p q} hp hq hlt => ?_)
    intro site hp' hq'
    rw [hof] at hp' hq'
    have hsame := congrArg Player.toNat (Option.some.inj (hp'.symm.trans hq'))
    rw [Player.toNat_ofNat, Player.toNat_ofNat] at hsame
    have hp := List.mem_range.mp hp
    have hq := List.mem_range.mp hq
    rw [Nat.mod_eq_of_lt hp, Nat.mod_eq_of_lt hq] at hsame
    omega

theorem mem_flatten_holdings (h : s.siteCount < UInt32.size) {site : Site} :
    site ∈ s.holdings.flatten ↔ site.toNat < s.siteCount := by
  rw [holdings, List.flatten_cons, List.mem_append, emptySites,
    (listsExactly_filter_isEmpty h).mem, ← List.flatMap_def, List.mem_flatMap]
  constructor
  · intro hmem
    by_contra hout
    have hnone := owner_eq_none (Nat.le_of_not_lt hout)
    obtain hempty | ⟨p, -, hp⟩ := hmem
    · exact hout (isEmpty_iff.mp hempty).1
    · rw [mem_sitesOf_iff (Nat.le_of_lt h), hnone] at hp
      cases hp
  · intro hlt
    cases howner : s.owner site with
    | none => exact Or.inl (isEmpty_iff.mpr ⟨hlt, howner⟩)
    | some p =>
      refine Or.inr ⟨p.toNat, List.mem_range.mpr p.toNat_lt, ?_⟩
      rw [mem_sitesOf_iff (Nat.le_of_lt h), howner, p.ofNat_toNat]

theorem partitioned (h : s.siteCount < UInt32.size) : s.Partitioned := by
  have hascending := pairwise_of_mem_holdings h
  have hdisjoint := disjoint_holdings h
  refine ⟨hascending, hdisjoint, fun site => ?_⟩
  have hnodup : s.holdings.flatten.Nodup := by
    refine List.nodup_flatten.mpr ⟨fun sites hmem => ?_, hdisjoint⟩
    exact Site.nodup_of_pairwise_lt (hascending sites hmem)
  by_cases hlt : site.toNat < s.siteCount
  · rw [if_pos hlt]
    exact List.count_eq_one_of_mem hnodup ((mem_flatten_holdings h).mpr hlt)
  · rw [if_neg hlt]
    exact List.count_eq_zero.mpr fun hmem => hlt ((mem_flatten_holdings h).mp hmem)

/-- Where every place of a board has a site number, the owners of the sites are the board. -/
theorem board_eq_of_owner (hcount : s.siteCount = t.siteCount) (hsize : s.siteCount ≤ UInt32.size)
    (howner : ∀ site, s.owner site = t.owner site) : s.board = t.board := by
  refine Array.ext hcount fun i hs ht => ?_
  have hlt : i < UInt32.size := Nat.lt_of_lt_of_le hs hsize
  have hi := howner (Site.ofNat i)
  rw [owner, owner, Site.toNat_ofNat_of_lt hlt, Array.getElem?_eq_getElem hs,
    Array.getElem?_eq_getElem ht] at hi
  exact hi

theorem board_run_eq {players' : Nat} (hs : ofSize players sites = .ok s)
    (ht : ofSize players' sites = .ok t) (hsites : sites ≤ UInt32.size) {calls calls' : List Call}
    (hputs : ∀ site, site.toNat < sites →
      (lastPut? calls site).join = (lastPut? calls' site).join) :
    (s.run calls).board = (t.run calls').board := by
  have hcount := siteCount_ofSize hs
  have hcount' := siteCount_ofSize ht
  refine board_eq_of_owner (by simp [hcount, hcount']) (by simp [hcount, hsites]) fun site => ?_
  rw [owner_run_ofSize hs, owner_run_ofSize ht, ownerAfter, ownerAfter]
  split
  · rename_i hlt
    exact hputs site hlt
  · rfl

theorem mover_run_ofSize (hs : ofSize players sites = .ok s) (calls : List Call) :
    (s.run calls).mover = (lastMover? calls).getD ⟨0⟩ := by
  rw [mover_run, (ofSize_eq_ok hs).2.2.1]

theorem turn_run_ofSize (hs : ofSize players sites = .ok s) {calls : List Call}
    (hturns : calls.count .advance < 4294967295) :
    (s.run calls).turn.toNat = 1 + calls.count .advance := by
  have hone : (1 : UInt32).toNat = 1 := rfl
  rw [turn_run, (ofSize_eq_ok hs).2.2.2, UInt32.toNat_add, UInt32.toNat_ofNat', hone]
  omega

/-- A run on a board that starts empty, of a size for which all sites have numbers and with turns
that can be counted: sites and players stay, a site has the owner that was put there last, and the
lists of empty sites and of the sites of each player split the board. A second run on a board of
this size that leaves each site to the same player has the same position, and the same situation if
the same mover was set last. -/
theorem run_last_put_wins (hs : ofSize players sites = .ok s) (hsites : sites ≤ 4294967295)
    {calls : List Call} (hturns : calls.count .advance < 4294967295) :
    (s.run calls).siteCount = sites ∧ (s.run calls).players = players ∧
      (s.run calls).turn.toNat = 1 + calls.count .advance ∧
      (∀ site, (s.run calls).owner site =
        if site.toNat < sites then (lastPut? calls site).join else none) ∧
      (s.run calls).Partitioned ∧
      ∀ players' t calls', ofSize players' sites = .ok t →
        (∀ site, site.toNat < sites → (lastPut? calls site).join = (lastPut? calls' site).join) →
          (s.run calls).positionHash = (t.run calls').positionHash ∧
            ((lastMover? calls).getD ⟨0⟩ = (lastMover? calls').getD ⟨0⟩ →
              (s.run calls).situationHash = (t.run calls').situationHash) := by
  have hsize : UInt32.size = 4294967296 := rfl
  have hcount : (s.run calls).siteCount = sites := by rw [siteCount_run, siteCount_ofSize hs]
  have hplayers : (s.run calls).players = players := (players_run s calls).trans (ofSize_eq_ok hs).1
  refine ⟨hcount, hplayers, turn_run_ofSize hs hturns, owner_run_ofSize hs calls,
    partitioned (by omega), fun players' t calls' ht hputs => ?_⟩
  have hposition := positionHash_congr (board_run_eq hs ht (by omega) hputs)
  refine ⟨hposition, fun hmover => ?_⟩
  rw [situationHash, situationHash, hposition, mover_run_ofSize hs, mover_run_ofSize ht, hmover]

def detour : List Call :=
  [.put ⟨0⟩ (some ⟨1⟩), .advance, .put ⟨7⟩ (some ⟨0⟩), .withMover ⟨1⟩, .put ⟨2⟩ (some ⟨0⟩),
    .put ⟨0⟩ none, .put ⟨1⟩ (some ⟨1⟩), .withMover ⟨0⟩]

def straight : List Call := [.put ⟨1⟩ (some ⟨1⟩), .put ⟨2⟩ (some ⟨0⟩)]

theorem run_last_put_wins_detour :
    3 ≤ 4294967295 ∧ ∃ s, ofSize 2 3 = .ok s ∧ detour.count .advance < 4294967295 ∧
      (s.run detour).owner ⟨0⟩ = none ∧ (s.run detour).owner ⟨2⟩ = some ⟨0⟩ ∧
      (s.run detour).owner ⟨7⟩ = none ∧
      (s.run detour).situationHash = (s.run straight).situationHash := by
  have hseats : 1 ≤ 2 ∧ 2 ≤ 255 := by decide
  have hsites : 3 ≤ 4294967295 := by decide
  obtain ⟨s, hs⟩ := exists_ofSize hseats 3
  have hturns : detour.count .advance < 4294967295 := by decide
  obtain ⟨-, -, -, howner, -, hsame⟩ := run_last_put_wins hs hsites hturns
  have hputs : ∀ site : Site, site.toNat < 3 →
      (lastPut? detour site).join = (lastPut? straight site).join := by
    intro site hlt
    have hsite : site = ⟨0⟩ ∨ site = ⟨1⟩ ∨ site = ⟨2⟩ := by
      have hcases : site.toNat = 0 ∨ site.toNat = 1 ∨ site.toNat = 2 := by omega
      exact hcases.imp Site.toNat_injective (Or.imp Site.toNat_injective Site.toNat_injective)
    obtain rfl | rfl | rfl := hsite <;> decide
  obtain ⟨-, hsituation⟩ := hsame 2 s straight hs hputs
  exact ⟨hsites, s, hs, hturns, (howner ⟨0⟩).trans (by decide), (howner ⟨2⟩).trans (by decide),
    (howner ⟨7⟩).trans (by decide), hsituation (by decide)⟩

end Snapshot
end LegalMoves
