import LegalMoves.Proofs.Preparation
import LegalMoves.Snapshot.Calls

set_option autoImplicit false

namespace LegalMoves

/-- A list holds the sites with a property, each once, in ascending order. -/
structure ListsExactly (sites : List Site) (P : Site → Prop) : Prop where
  mem : ∀ site, site ∈ sites ↔ P site
  ascending : sites.Pairwise (· < ·)

namespace ListsExactly

variable {sites : List Site} {P : Site → Prop}

theorem filter (h : ListsExactly sites P) {q : Site → Bool} (hq : ∀ site, q site = true → P site) :
    ListsExactly (sites.filter q) fun site => q site = true where
  mem site := by
    rw [List.mem_filter, h.mem]
    exact and_iff_right_of_imp (hq site)
  ascending := h.ascending.filter q

end ListsExactly

namespace Snapshot

structure Enumerated (s : Snapshot) : Prop where
  sites : ListsExactly s.sites fun site => site.toNat < s.siteCount
  offBoard : Site.offBoard ∉ s.sites
  isEmpty_offBoard : s.isEmpty .offBoard = false
  placements : ∀ marks chain, ∃ empties, ListsExactly empties (fun site => s.isEmpty site = true) ∧
    ((Rule.leaf .place marks chain).eval s).value.moves =
      empties.map fun site => (Move.add s.mover site).stamp marks chain

variable {s : Snapshot}

theorem listsExactly_sites (h : s.siteCount < UInt32.size) :
    ListsExactly s.sites fun site => site.toNat < s.siteCount where
  mem site := by rw [mem_sites_iff, Nat.mod_eq_of_lt h]
  ascending := pairwise_sites s

theorem listsExactly_sitesOf (h : s.Addressed) (p : Player) :
    ListsExactly (s.sitesOf p) fun site => s.owner site = some p where
  mem _ := mem_sitesOf_iff_of_addressed h
  ascending := pairwise_sitesOf_of_addressed h p

theorem listsExactly_filter_isEmpty (h : s.siteCount < UInt32.size) :
    ListsExactly (s.sites.filter s.isEmpty) fun site => s.isEmpty site = true :=
  (listsExactly_sites h).filter fun _ hempty => (isEmpty_iff.mp hempty).1

theorem moves_place (marks : Marks) (chain : Chain) (s : Snapshot) :
    ((Rule.leaf .place marks chain).eval s).value.moves =
      (s.sites.filter s.isEmpty).map fun site => (Move.add s.mover site).stamp marks chain := by
  rw [Rule.value_eval, Rule.moves_leaf, Leaf.moves, Leaf.placements_eq_filter, List.map_map]
  rfl

/-- The number for off the board is never listed, be it a site of the board or not. -/
theorem offBoard_not_mem_sites (s : Snapshot) : Site.offBoard ∉ s.sites := by
  have hlt : s.siteCount % UInt32.size < UInt32.size := Nat.mod_lt _ (by decide)
  rw [mem_sites_iff, Site.toNat_offBoard]
  omega

theorem enumerated_iff : s.Enumerated ↔ s.siteCount < UInt32.size := by
  constructor
  · intro h
    have hall := (h.sites.mem .offBoard).mpr
    rw [Site.toNat_offBoard] at hall
    by_contra hle
    have hsize : UInt32.size = 4294967296 := rfl
    exact h.offBoard (hall (by omega))
  · intro h
    have hoff : s.isEmpty .offBoard = false := by
      rw [← Bool.not_eq_true, isEmpty_iff, Site.toNat_offBoard]
      omega
    exact ⟨listsExactly_sites h, offBoard_not_mem_sites s, hoff, fun marks chain =>
      ⟨s.sites.filter s.isEmpty, listsExactly_filter_isEmpty h, moves_place marks chain s⟩⟩

/-- A board of any size can be set up, and whatever calls follow, it lists the sites of each player;
all its sites it lists exactly if there are fewer than `2 ^ 32`. -/
theorem enumerated_run_iff {players : Nat} (h : 1 ≤ players ∧ players ≤ 255) (sites : Nat) :
    ∃ s, ofSize players sites = .ok s ∧ ∀ calls,
      (∀ p, ListsExactly ((s.run calls).sitesOf p) fun site => (s.run calls).owner site = some p) ∧
        ((s.run calls).Enumerated ↔ sites < UInt32.size) := by
  obtain ⟨s, hs⟩ := exists_ofSize h sites
  refine ⟨s, hs, fun calls => ⟨?_, ?_⟩⟩
  · exact listsExactly_sitesOf ((addressed_ofSize hs).run calls)
  · rw [enumerated_iff, siteCount_run, siteCount_ofSize hs]

theorem enumerated_run_iff_widest :
    (1 ≤ 255 ∧ 255 ≤ 255) ∧
      (∃ s, ofSize 255 4294967295 = .ok s ∧
        (s.run [.put ⟨4294967294⟩ (some ⟨7⟩), .put ⟨4294967295⟩ (some ⟨7⟩)]).Enumerated) ∧
      ∃ s, ofSize 255 4294967296 = .ok s ∧ ¬ (s.run [.put ⟨4294967295⟩ (some ⟨7⟩)]).Enumerated := by
  have hplayers : 1 ≤ 255 ∧ 255 ≤ 255 := by decide
  obtain ⟨s, hs, hrun⟩ := enumerated_run_iff hplayers 4294967295
  obtain ⟨t, ht, hwide⟩ := enumerated_run_iff hplayers 4294967296
  refine ⟨hplayers, ⟨s, hs, (hrun _).2.mpr (by decide)⟩, t, ht, fun hall => ?_⟩
  exact absurd ((hwide _).2.mp hall) (by decide)

/-- An empty board of `2 ^ 32` sites: its first site is empty, so is the place off the board, yet no
site is listed and there is nothing to place. -/
theorem widest_board_not_listed :
    ∃ s, ofSize 1 4294967296 = .ok s ∧ s.isEmpty ⟨0⟩ = true ∧ s.isEmpty .offBoard = true ∧
      s.sites = [] ∧ ((Rule.ofLeaf .place).eval s).value.moves = [] := by
  have hseats : 1 ≤ 1 ∧ 1 ≤ 255 := by decide
  obtain ⟨s, hs⟩ := exists_ofSize hseats 4294967296
  have hcount := siteCount_ofSize hs
  have hempty : ∀ site, s.isEmpty site = true := by
    intro site
    have hlt := site.toNat_lt
    have hsize : UInt32.size = 4294967296 := rfl
    exact isEmpty_iff.mpr ⟨by omega, owner_ofSize hs site⟩
  have hsites : s.sites = [] := by
    rw [sites, hcount]
    rfl
  refine ⟨s, hs, hempty ⟨0⟩, hempty .offBoard, hsites, ?_⟩
  rw [Rule.ofLeaf, moves_place, hsites]
  rfl

end Snapshot
end LegalMoves
