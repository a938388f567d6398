import LegalMoves.Compiled
import LegalMoves.Lists
import LegalMoves.Proofs.Enumeration
import LegalMoves.Proofs.Steps
import LegalMoves.Proofs.Validation

set_option autoImplicit false

namespace LegalMoves
namespace Site

def Beside (i j : Site) : Prop := i.toNat + 1 = j.toNat ∨ j.toNat + 1 = i.toNat

instance (i j : Site) : Decidable (i.Beside j) := inferInstanceAs (Decidable (_ ∨ _))

def before? (s : Site) : Option Site := if s.index = 0 then none else some ⟨s.index - 1⟩

def after? (s : Site) : Option Site := if s.index = 0xffffffff then none else some ⟨s.index + 1⟩

theorem beside_comm {i j : Site} : i.Beside j ↔ j.Beside i := Or.comm

theorem not_beside_self (i : Site) : ¬ i.Beside i := by
  unfold Beside
  omega

theorem before?_ofNat {i : Nat} (hpos : 0 < i) (h : i < UInt32.size) :
    (ofNat i).before? = some (ofNat (i - 1)) := by
  have hne : UInt32.ofNat i ≠ 0 := by
    intro hzero
    have hnat := congrArg UInt32.toNat hzero
    rw [UInt32.toNat_ofNat_of_lt' h] at hnat
    exact Nat.ne_of_gt hpos hnat
  rw [before?, ofNat, if_neg hne, ofNat, UInt32.ofNat_sub hpos]
  rfl

theorem after?_ofNat {i : Nat} (h : i + 1 < UInt32.size) :
    (ofNat i).after? = some (ofNat (i + 1)) := by
  have hne : UInt32.ofNat i ≠ 0xffffffff := by
    intro hmax
    have hnat := congrArg UInt32.toNat hmax
    rw [UInt32.toNat_ofNat_of_lt' (by omega)] at hnat
    have hsize : UInt32.size = (0xffffffff : UInt32).toNat + 1 := rfl
    omega
  rw [after?, ofNat, if_neg hne, ofNat, UInt32.ofNat_add]
  rfl

end Site

namespace Config

variable {n i : Nat}

/-- The neighbours of a place on a line, worked out from the index of the place; nothing if a step
leaves the range of indices. -/
def lineRow? (n i : Nat) : Option (List Site) := do
  let before ← (if 0 < i then (Site.ofNat i).before?.map ([·]) else some [])
  let after ← (if i + 1 < n then (Site.ofNat i).after?.map ([·]) else some [])
  return before ++ after

def lineTable? (n : Nat) : Option (List (List Site)) := (List.range n).mapM (lineRow? n)

theorem lineRow?_eq (hn : n ≤ UInt32.size) (hi : i < n) :
    lineRow? n i = some (lineNeighbours n i) := by
  have hbefore : (if 0 < i then (Site.ofNat i).before?.map ([·]) else some []) =
      some (if 0 < i then [Site.ofNat (i - 1)] else []) := by
    split
    · rename_i hpos
      rw [Site.before?_ofNat hpos (by omega), Option.map_some]
    · rfl
  have hafter : (if i + 1 < n then (Site.ofNat i).after?.map ([·]) else some []) =
      some (if i + 1 < n then [Site.ofNat (i + 1)] else []) := by
    split
    · rw [Site.after?_ofNat (by omega), Option.map_some]
    · rfl
  rw [lineRow?, hbefore, hafter]
  rfl

theorem toList_adjacency_line (c : Config) : c.line.adjacency.toList =
    (List.range c.sites.toNat).map (lineNeighbours c.sites.toNat) := by
  simp [line]

/-- While a line is built, no index leaves its range. -/
theorem lineTable?_eq {c : Config} (h : c.sites.toNat ≤ UInt32.size) :
    lineTable? c.sites.toNat = some c.line.adjacency.toList := by
  rw [toList_adjacency_line]
  exact List.mapM_eq_some_map fun i hi => lineRow?_eq h (List.mem_range.mp hi)

theorem mem_lineNeighbours (hn : n ≤ UInt32.size) (hi : i < n) {j : Site} :
    j ∈ lineNeighbours n i ↔ j.toNat < n ∧ (i + 1 = j.toNat ∨ j.toNat + 1 = i) := by
  have hof : ∀ k : Nat, k < UInt32.size → (j = Site.ofNat k ↔ j.toNat = k) := by
    intro k hk
    constructor
    · intro heq
      rw [heq, Site.toNat_ofNat_of_lt hk]
    · intro heq
      rw [← heq, Site.ofNat_toNat]
  have hbefore : j ∈ (if 0 < i then [Site.ofNat (i - 1)] else []) ↔ j.toNat + 1 = i := by
    split
    · rw [List.mem_singleton, hof _ (by omega)]
      omega
    · simp
      omega
  have hafter : j ∈ (if i + 1 < n then [Site.ofNat (i + 1)] else []) ↔
      j.toNat < n ∧ i + 1 = j.toNat := by
    split
    · rw [List.mem_singleton, hof _ (by omega)]
      omega
    · simp
      omega
  rw [lineNeighbours, List.mem_append, hbefore, hafter]
  omega

theorem pairwise_lineNeighbours (hn : n ≤ UInt32.size) :
    (lineNeighbours n i).Pairwise (· < ·) := by
  unfold lineNeighbours
  split
  · split
    · rw [List.singleton_append, List.pairwise_pair, Site.lt_iff_toNat_lt,
        Site.toNat_ofNat_of_lt (by omega), Site.toNat_ofNat_of_lt (by omega)]
      omega
    · exact List.pairwise_singleton _ _
  · split
    · exact List.pairwise_singleton _ _
    · exact List.Pairwise.nil

theorem neighbours_line (c : Config) (i : Site) :
    c.line.neighbours i =
      if i.toNat < c.sites.toNat then lineNeighbours c.sites.toNat i.toNat else [] := by
  rw [neighbours, line]
  split
  · rename_i hlt
    simp [hlt]
  · rename_i hlt
    simp [hlt]

end Config

structure IsLine (near : Site → List Site) (n : Nat) : Prop where
  lists : ∀ i : Site, i.toNat < n → ListsExactly (near i) fun j => j.toNat < n ∧ i.Beside j
  beyond : ∀ i : Site, n ≤ i.toNat → near i = []

namespace IsLine

variable {near : Site → List Site} {n : Nat} {i j : Site}

theorem mem_iff (h : IsLine near n) : j ∈ near i ↔ i.toNat < n ∧ j.toNat < n ∧ i.Beside j := by
  by_cases hi : i.toNat < n
  · rw [(h.lists i hi).mem, and_iff_right hi]
  · rw [h.beyond i (Nat.le_of_not_lt hi)]
    exact iff_of_false List.not_mem_nil fun hboth => hi hboth.1

theorem pairwise (h : IsLine near n) (i : Site) : (near i).Pairwise (· < ·) := by
  by_cases hi : i.toNat < n
  · exact (h.lists i hi).ascending
  · rw [h.beyond i (Nat.le_of_not_lt hi)]
    exact List.Pairwise.nil

theorem symmetric (h : IsLine near n) : j ∈ near i ↔ i ∈ near j := by
  rw [h.mem_iff, h.mem_iff, Site.beside_comm]
  exact and_left_comm

theorem irreflexive (h : IsLine near n) (i : Site) : i ∉ near i := by
  rw [h.mem_iff]
  exact fun hself => i.not_beside_self hself.2.2

theorem eq_nil_of_one (h : IsLine near 1) (i : Site) : near i = [] := by
  refine List.eq_nil_iff_forall_not_mem.mpr fun j hj => ?_
  obtain ⟨hi, hj, hbeside⟩ := h.mem_iff.mp hj
  unfold Site.Beside at hbeside
  omega

end IsLine

namespace Config

variable {c : Config}

theorem isLine_line (h : c.sites.toNat ≤ UInt32.size) :
    IsLine c.line.neighbours c.sites.toNat where
  lists i hi := by
    rw [c.neighbours_line, if_pos hi]
    exact ⟨fun j => mem_lineNeighbours h hi, pairwise_lineNeighbours h⟩
  beyond i hi := by rw [c.neighbours_line, if_neg (Nat.not_lt_of_le hi)]

theorem SitesFit.le_size (h : c.SitesFit) : c.sites.toNat ≤ UInt32.size :=
  Nat.le_trans (Nat.le_of_lt h.2) (by decide)

theorem wellFormed_line (hplayers : c.PlayersFit) (hsites : c.SitesFit) : c.line.WellFormed where
  players := hplayers
  sites := hsites
  rows := Or.inr c.size_line
  entries := by
    rw [entriesFit_iff, toList_adjacency_line]
    intro row hrow n hn
    obtain ⟨i, hi, rfl⟩ := List.mem_map.mp hrow
    exact ((mem_lineNeighbours hsites.le_size (List.mem_range.mp hi)).mp hn).1

end Config

theorem Move.stampedStep_pair_injective (mover : Player) (marks : Marks) (chain : Chain) :
    Function.Injective fun pair : Site × Site =>
      stampedStep mover marks chain pair.1 pair.2 := by
  intro a b h
  have horigin : a.1 = b.1 := Option.some.inj (congrArg Move.origin h)
  exact Prod.ext horigin (congrArg Move.target h)

/-- A list holds the pairs of sites with a property, in lexicographic order. -/
structure ListsPairs (P : Site → Site → Prop) (pairs : List (Site × Site)) : Prop where
  mem : ∀ origin target, (origin, target) ∈ pairs ↔ P origin target
  lexicographic : pairs.Pairwise (Prod.Lex (· < ·) (· < ·))

theorem ListsPairs.nodup {P : Site → Site → Prop} {pairs : List (Site × Site)}
    (h : ListsPairs P pairs) : pairs.Nodup := by
  refine h.lexicographic.imp fun {a b} hlt heq => ?_
  rw [heq, Prod.lex_def, Site.lt_iff_toNat_lt, Site.lt_iff_toNat_lt] at hlt
  omega

namespace Rule

variable {near : Site → List Site} {s : Snapshot}

def stepPairs (near : Site → List Site) (s : Snapshot) : List (Site × Site) :=
  (s.sitesOf s.mover).flatMap fun origin =>
    ((near origin).filter s.isEmpty).map fun target => (origin, target)

theorem stepsOn_eq_map (near : Site → List Site) (marks : Marks) (chain : Chain) (s : Snapshot) :
    stepsOn near marks chain s =
      (stepPairs near s).map fun pair => Move.stampedStep s.mover marks chain pair.1 pair.2 := by
  rw [stepsOn, stepPairs, List.map_flatMap]
  simp only [List.map_map]
  rfl

theorem mem_stepPairs (hsize : s.siteCount ≤ UInt32.size) {origin target : Site} :
    (origin, target) ∈ stepPairs near s ↔
      s.owner origin = some s.mover ∧ target ∈ near origin ∧ s.isEmpty target = true := by
  rw [stepPairs, List.mem_flatMap]
  constructor
  · intro hmem
    obtain ⟨site, hsite, hpair⟩ := hmem
    obtain ⟨other, hother, heq⟩ := List.mem_map.mp hpair
    obtain ⟨rfl, rfl⟩ := Prod.mk.inj heq
    exact ⟨(Snapshot.mem_sitesOf_iff hsize).mp hsite, List.mem_filter.mp hother⟩
  · intro hstep
    exact ⟨origin, (Snapshot.mem_sitesOf_iff hsize).mpr hstep.1,
      List.mem_map.mpr ⟨target, List.mem_filter.mpr hstep.2, rfl⟩⟩

theorem pairwise_stepPairs (hsize : s.siteCount ≤ UInt32.size)
    (hnear : ∀ i, (near i).Pairwise (· < ·)) :
    (stepPairs near s).Pairwise (Prod.Lex (· < ·) (· < ·)) := by
  rw [stepPairs, List.pairwise_flatMap]
  constructor
  · intro origin _
    refine List.pairwise_map.mpr ((hnear origin).filter _ |>.imp fun hlt => ?_)
    exact Prod.Lex.right _ hlt
  · refine (Snapshot.pairwise_sitesOf hsize s.mover).imp fun {i j} hlt a ha b hb => ?_
    obtain ⟨target, _, rfl⟩ := List.mem_map.mp ha
    obtain ⟨target', _, rfl⟩ := List.mem_map.mp hb
    exact Prod.Lex.left _ _ hlt

theorem listsPairs_stepPairs {n : Nat} (hline : IsLine near n) (hcount : s.siteCount = n)
    (hsize : n ≤ UInt32.size) :
    ListsPairs (fun origin target =>
      s.owner origin = some s.mover ∧ s.isEmpty target = true ∧ origin.Beside target)
      (stepPairs near s) where
  mem origin target := by
    rw [mem_stepPairs (by omega), hline.mem_iff]
    constructor
    · intro hstep
      exact ⟨hstep.1, hstep.2.2, hstep.2.1.2.2⟩
    · intro hstep
      obtain ⟨howner, hempty, hbeside⟩ := hstep
      refine ⟨howner, ⟨?_, ?_, hbeside⟩, hempty⟩
      · by_contra hout
        rw [Snapshot.owner_eq_none (by omega)] at howner
        cases howner
      · rw [← hcount]
        exact (Snapshot.isEmpty_iff.mp hempty).1
  lexicographic := pairwise_stepPairs (by omega) hline.pairwise

end Rule

namespace Compiled

/-- The steps of the mover from one place on a line to a place beside it, be it to either side. -/
structure MovesBeside (marks : Marks) (chain : Chain) (s : Snapshot) (ms : List Move) : Prop where
  exact : ∃ pairs, ListsPairs (fun origin target =>
      s.owner origin = some s.mover ∧ s.isEmpty target = true ∧ origin.Beside target) pairs ∧
    ms = pairs.map fun pair => Move.stampedStep s.mover marks chain pair.1 pair.2
  nodup : ms.Nodup

theorem MovesBeside.mem_iff {marks : Marks} {chain : Chain} {s : Snapshot} {ms : List Move}
    (h : MovesBeside marks chain s ms) (origin target : Site) :
    Move.stampedStep s.mover marks chain origin target ∈ ms ↔
      s.owner origin = some s.mover ∧ s.isEmpty target = true ∧ origin.Beside target := by
  obtain ⟨pairs, hpairs, hms⟩ := h.exact
  have hinjective := Move.stampedStep_pair_injective s.mover marks chain
  rw [hms, ← hpairs.mem, ← List.mem_map_of_injective hinjective]

theorem movesBeside_legalMoves {g : Game} {n : Nat} (hline : IsLine g.neighbours n)
    (hsize : n ≤ UInt32.size) (marks : Marks) (chain : Chain) {s : Snapshot}
    (hcount : s.siteCount = n) :
    MovesBeside marks chain s
      ((compile g (.leaf (.step none) marks chain)).value.legalMoves s).value.moves := by
  have hmoves : ((compile g (.leaf (.step none) marks chain)).value.legalMoves s).value.moves =
      (Rule.stepPairs g.neighbours s).map fun pair =>
        Move.stampedStep s.mover marks chain pair.1 pair.2 := by
    rw [legalMoves, root_compile, Rule.value_eval, ← Rule.stepsOn_eq_map]
    exact Rule.moves_stepFor g [] marks chain s
  have hpairs := Rule.listsPairs_stepPairs hline hcount hsize
  refine ⟨⟨_, hpairs, hmoves⟩, ?_⟩
  rw [hmoves]
  exact hpairs.nodup.map (Move.stampedStep_pair_injective s.mover marks chain)

/-- A line of any size that a game can have is built with no index out of range and accepted, and
its sites are connected as on a line. On every board of this size the step rule compiled for it
moves each piece of the mover to the empty places beside it, each move once and in order. -/
theorem line_steps_exact {c : Config} (hplayers : c.PlayersFit) (hsites : c.SitesFit) :
    Config.lineTable? c.sites.toNat = some c.line.adjacency.toList ∧
      ∃ g, Game.ofConfig c.line = .ok g ∧ IsLine g.neighbours c.sites.toNat ∧
        (∀ i j, j ∈ g.neighbours i ↔ i ∈ g.neighbours j) ∧ (∀ i, i ∉ g.neighbours i) ∧
        (c.sites.toNat = 1 → ∀ i, g.neighbours i = []) ∧
        ∀ marks chain s, s.siteCount = c.sites.toNat →
          MovesBeside marks chain s
            ((compile g (.leaf (.step none) marks chain)).value.legalMoves s).value.moves := by
  obtain ⟨g, hg⟩ := Game.exists_ofConfig_eq_ok_iff.mpr (Config.wellFormed_line hplayers hsites)
  have hline : IsLine g.neighbours c.sites.toNat := by
    have hneighbours : g.neighbours = c.line.neighbours := by
      rw [← Game.ofConfig_eq_ok_iff.mp hg]
      rfl
    rw [hneighbours]
    exact Config.isLine_line hsites.le_size
  refine ⟨Config.lineTable?_eq hsites.le_size, g, hg, hline, fun i j => hline.symmetric,
    hline.irreflexive, fun hone i => (hone ▸ hline).eq_nil_of_one i, fun marks chain s hcount => ?_⟩
  exact movesBeside_legalMoves hline hsites.le_size marks chain hcount

def longestLine : Config := { name := "line", players := 255, sites := 4294967294 }

theorem line_steps_exact_longestLine :
    longestLine.PlayersFit ∧ longestLine.SitesFit ∧
      ∃ g s, Game.ofConfig longestLine.line = .ok g ∧ Snapshot.ofSize 255 4294967294 = .ok s ∧
        ⟨4294967292⟩ ∈ g.neighbours ⟨4294967293⟩ ∧ ⟨4294967294⟩ ∉ g.neighbours ⟨4294967293⟩ ∧
        Move.step ⟨0⟩ ⟨4294967293⟩ ⟨4294967292⟩ ∈
          ((compile g (.ofLeaf (.step none))).value.legalMoves
            (s.run [.put ⟨4294967293⟩ (some ⟨0⟩)])).value.moves := by
  have hplayers : longestLine.PlayersFit := ⟨by decide, by decide⟩
  have hsites : longestLine.SitesFit := ⟨by decide, by decide⟩
  obtain ⟨-, g, hg, hline, -, -, -, hsteps⟩ := line_steps_exact hplayers hsites
  have hseats : 1 ≤ 255 ∧ 255 ≤ 255 := by decide
  obtain ⟨s, hs⟩ := Snapshot.exists_ofSize hseats 4294967294
  have hmover : (s.run [.put ⟨4294967293⟩ (some ⟨0⟩)]).mover = ⟨0⟩ := by
    rw [Snapshot.mover_run, (Snapshot.ofSize_eq_ok hs).2.2.1]
    rfl
  have hmoves := hsteps {} .absent (s.run [.put ⟨4294967293⟩ (some ⟨0⟩)])
    ((Snapshot.siteCount_run ..).trans (Snapshot.siteCount_ofSize hs))
  have hmem := hmoves.mem_iff ⟨4294967293⟩ ⟨4294967292⟩
  rw [hmover, Snapshot.owner_run_ofSize hs, Snapshot.isEmpty_run_ofSize hs] at hmem
  refine ⟨hplayers, hsites, g, s, hg, hs, hline.mem_iff.mpr (by decide), ?_, hmem.mpr (by decide)⟩
  exact fun hout => absurd (hline.mem_iff.mp hout) (by decide)

end Compiled
end LegalMoves
