import LegalMoves.Proofs.FirstGame
import Mathlib.Data.List.Count
import Mathlib.Data.List.Nodup

set_option autoImplicit false

namespace LegalMoves

def Move.stampedStep (mover : Player) (marks : Marks) (chain : Chain) (origin target : Site) : Move :=
  (Move.step mover origin target).stamp marks chain

def Rule.stepsOn (near : Site → List Site) (marks : Marks) (chain : Chain) (s : Snapshot) :
    List Move :=
  (s.sitesOf s.mover).flatMap fun origin =>
    ((near origin).filter s.isEmpty).map (Move.stampedStep s.mover marks chain origin)

/-- A list has each legal step on a board as often as the board repeats it, and nothing else; the
steps are ordered by their origins, and those from one origin as the board lists its neighbours. -/
structure ListsSteps (near : Site → List Site) (marks : Marks) (chain : Chain) (s : Snapshot)
    (ms : List Move) : Prop where
  only : ∀ m ∈ ms, ∃ origin target, m = Move.stampedStep s.mover marks chain origin target
  count : ∀ origin target, ms.count (Move.stampedStep s.mover marks chain origin target) =
    if s.owner origin = some s.mover ∧ s.isEmpty target = true then (near origin).count target else 0
  ascending : (ms.filterMap Move.origin).Pairwise fun a b => a.toNat ≤ b.toNat
  targets : ∀ origin, s.owner origin = some s.mover →
    (ms.filter (·.origin == some origin)).map Move.target = (near origin).filter s.isEmpty

namespace Move

variable (mover : Player) (marks : Marks) (chain : Chain) (origin target : Site)

@[simp] theorem origin_stampedStep :
    (stampedStep mover marks chain origin target).origin = some origin := rfl

@[simp] theorem target_stampedStep :
    (stampedStep mover marks chain origin target).target = target := rfl

theorem stampedStep_injective : Function.Injective (stampedStep mover marks chain origin) :=
  fun _ _ h => congrArg Move.target h

end Move

namespace Rule

open Move

variable {near : Site → List Site} {marks : Marks} {chain : Chain} {s : Snapshot}

theorem mem_stepsOn (hsize : s.siteCount ≤ UInt32.size) {m : Move} :
    m ∈ stepsOn near marks chain s ↔ ∃ origin target, s.owner origin = some s.mover ∧
      target ∈ near origin ∧ s.isEmpty target = true ∧
        stampedStep s.mover marks chain origin target = m := by
  simp only [stepsOn, List.mem_flatMap, List.mem_map, List.mem_filter,
    Snapshot.mem_sitesOf_iff hsize]
  grind

theorem filter_origin_flatMap {f : Site → List Move} (h : ∀ site, ∀ m ∈ f site, m.origin = some site)
    {sites : List Site} (hnodup : sites.Nodup) (origin : Site) :
    (sites.flatMap f).filter (·.origin == some origin) = if origin ∈ sites then f origin else [] := by
  induction sites with
  | nil => rfl
  | cons site sites ih =>
    obtain ⟨hnew, hrest⟩ := List.nodup_cons.mp hnodup
    rw [List.flatMap_cons, List.filter_append, ih hrest]
    by_cases heq : origin = site
    · subst heq
      have hall : (f origin).filter (·.origin == some origin) = f origin := by
        rw [List.filter_eq_self]
        intro m hm
        simp [h origin m hm]
      simp [hall, hnew]
    · have hnone : (f site).filter (·.origin == some origin) = [] := by
        rw [List.filter_eq_nil_iff]
        intro m hm
        simp [h site m hm, Ne.symm heq]
      simp [hnone, heq]

theorem origin_of_mem_stepsFrom {origin : Site} {m : Move}
    (h : m ∈ ((near origin).filter s.isEmpty).map (stampedStep s.mover marks chain origin)) :
    m.origin = some origin := by
  obtain ⟨target, _, rfl⟩ := List.mem_map.mp h
  rfl

theorem filter_stepsOn (hsize : s.siteCount ≤ UInt32.size) (origin : Site) :
    (stepsOn near marks chain s).filter (·.origin == some origin) =
      if s.owner origin = some s.mover then
        ((near origin).filter s.isEmpty).map (stampedStep s.mover marks chain origin)
      else [] := by
  have hnodup := Site.nodup_of_pairwise_lt (Snapshot.pairwise_sitesOf hsize s.mover)
  rw [stepsOn, filter_origin_flatMap (fun site m => origin_of_mem_stepsFrom) hnodup]
  simp only [Snapshot.mem_sitesOf_iff hsize]

theorem count_stepsOn (hsize : s.siteCount ≤ UInt32.size) (origin target : Site) :
    (stepsOn near marks chain s).count (stampedStep s.mover marks chain origin target) =
      if s.owner origin = some s.mover ∧ s.isEmpty target = true then (near origin).count target
      else 0 := by
  have hkept : (stampedStep s.mover marks chain origin target).origin == some origin := by simp
  rw [← List.count_filter (p := fun m => m.origin == some origin) hkept, filter_stepsOn hsize]
  by_cases howner : s.owner origin = some s.mover
  · rw [if_pos howner, List.count_map_of_injective _ _ (stampedStep_injective ..)]
    by_cases hempty : s.isEmpty target = true
    · rw [List.count_filter hempty, if_pos ⟨howner, hempty⟩]
    · rw [if_neg fun hboth => hempty hboth.2, List.count_eq_zero]
      exact fun hmem => hempty (List.mem_filter.mp hmem).2
  · rw [if_neg howner, if_neg fun hboth => howner hboth.1, List.count_nil]

theorem pairwise_origins_stepsOn (hsize : s.siteCount ≤ UInt32.size) :
    ((stepsOn near marks chain s).filterMap Move.origin).Pairwise fun a b => a.toNat ≤ b.toNat := by
  have hfrom : ∀ {site m a}, m ∈ ((near site).filter s.isEmpty).map
      (stampedStep s.mover marks chain site) → m.origin = some a → a = site := by
    intro site m a hm ha
    exact Option.some.inj (ha.symm.trans (origin_of_mem_stepsFrom hm))
  rw [List.pairwise_filterMap, stepsOn, List.pairwise_flatMap]
  constructor
  · intro origin _
    refine List.pairwise_of_forall_mem_list fun m hm n hn a ha b hb => ?_
    rw [hfrom hm ha, hfrom hn hb]
  · refine (Snapshot.pairwise_sitesOf hsize s.mover).imp fun hlt m hm n hn a ha b hb => ?_
    rw [hfrom hm ha, hfrom hn hb]
    exact Nat.le_of_lt hlt

theorem listsSteps_stepsOn (hsize : s.siteCount ≤ UInt32.size) :
    ListsSteps near marks chain s (stepsOn near marks chain s) where
  only m hm := by
    obtain ⟨origin, target, _, _, _, rfl⟩ := (mem_stepsOn hsize).mp hm
    exact ⟨origin, target, rfl⟩
  count := count_stepsOn hsize
  ascending := pairwise_origins_stepsOn hsize
  targets origin howner := by
    rw [filter_stepsOn hsize, if_pos howner, List.map_map]
    exact List.map_id _

end Rule

namespace ListsSteps

variable {near : Site → List Site} {marks : Marks} {chain : Chain} {s : Snapshot} {ms : List Move}

theorem legal (h : ListsSteps near marks chain s ms) {m : Move} (hm : m ∈ ms) :
    ∃ origin, m.origin = some origin ∧ s.owner origin = some s.mover ∧
      s.isEmpty m.target = true := by
  obtain ⟨origin, target, rfl⟩ := h.only m hm
  have hcount := List.count_pos_iff.mpr hm
  rw [h.count] at hcount
  by_cases hboth : s.owner origin = some s.mover ∧ s.isEmpty target = true
  · exact ⟨origin, rfl, hboth.1, hboth.2⟩
  · simp [hboth] at hcount

theorem onBoard (h : ListsSteps near marks chain s ms) {m : Move} (hm : m ∈ ms) :
    m.target.toNat < s.siteCount := by
  obtain ⟨_, _, _, hempty⟩ := h.legal hm
  exact (Snapshot.isEmpty_iff.mp hempty).1

theorem no_loop (h : ListsSteps near marks chain s ms) {m : Move} (hm : m ∈ ms) :
    m.origin ≠ some m.target := by
  obtain ⟨origin, horigin, howner, hempty⟩ := h.legal hm
  intro hloop
  have hsame : origin = m.target := Option.some.inj (horigin.symm.trans hloop)
  rw [hsame, (Snapshot.isEmpty_iff.mp hempty).2] at howner
  exact absurd howner (by simp)

theorem nodup_iff (h : ListsSteps near marks chain s ms) :
    ms.Nodup ↔ ∀ origin, s.owner origin = some s.mover →
      ∀ target, s.isEmpty target = true → (near origin).count target ≤ 1 := by
  rw [List.nodup_iff_count_le_one]
  constructor
  · intro hone origin howner target hempty
    have hle := hone (Move.stampedStep s.mover marks chain origin target)
    rwa [h.count, if_pos ⟨howner, hempty⟩] at hle
  · intro hone m
    by_cases hm : m ∈ ms
    · obtain ⟨origin, target, rfl⟩ := h.only m hm
      rw [h.count]
      split
      · rename_i hboth
        exact hone origin hboth.1 target hboth.2
      · exact Nat.zero_le 1
    · rw [List.count_eq_zero.mpr hm]
      exact Nat.zero_le 1

end ListsSteps

namespace Rule

/-- A step rule that was prepared for a game first, and for later ones after that. -/
def stepFor (g : Game) (later : List Game) (marks : Marks) (chain : Chain) : Rule :=
  (Rule.leaf (.step none) marks chain).preparedFor (g :: later)

theorem moves_stepFor (g : Game) (later : List Game) (marks : Marks) (chain : Chain)
    (s : Snapshot) : (stepFor g later marks chain).moves s = stepsOn g.neighbours marks chain s := by
  have hfresh : ∀ table, Leaf.step none ≠ .step (some table) := by simp
  rw [stepFor, preparedFor_cons, prepared_leaf, moves_leaf, Leaf.moves_prepare g hfresh,
    Move.stamp_prepared, Leaf.movesOn, List.map_flatMap, stepsOn]
  simp only [List.map_map]
  rfl

/-- What a step rule yields on any board whose sites have numbers of their own, be it larger or
smaller than that of the game: each step of the mover to an empty neighbour, as often as the game
lists the neighbour. So all targets are on the board, no step stays where it is, and a step comes
twice only if the game lists an empty neighbour of a site of the mover twice. -/
theorem step_moves_exact (g : Game) (later : List Game) (marks : Marks) (chain : Chain) :
    (∀ s : Snapshot, s.siteCount ≤ UInt32.size →
      ListsSteps g.neighbours marks chain s ((stepFor g later marks chain).eval s).value.moves ∧
        (∀ m ∈ ((stepFor g later marks chain).eval s).value.moves,
          m.target.toNat < s.siteCount ∧ m.origin ≠ some m.target) ∧
        (((stepFor g later marks chain).eval s).value.moves.Nodup ↔
          ∀ origin, s.owner origin = some s.mover →
            ∀ target, s.isEmpty target = true → (g.neighbours origin).count target ≤ 1)) ∧
      ∀ s, ((Rule.leaf (.step none) marks chain).eval s).value.moves = [] := by
  constructor
  · intro s hsize
    have hsteps : ListsSteps g.neighbours marks chain s
        ((stepFor g later marks chain).eval s).value.moves := by
      rw [value_eval, moves_stepFor]
      exact listsSteps_stepsOn hsize
    exact ⟨hsteps, fun m hm => ⟨hsteps.onBoard hm, hsteps.no_loop hm⟩, hsteps.nodup_iff⟩
  · intro s
    simp [value_eval, Leaf.moves, Leaf.steps, Leaf.tableNeighbours]

def twisted : Game where
  config := { name := "twisted", players := 2, sites := 3,
              adjacency := #[[⟨2⟩, ⟨1⟩, ⟨2⟩], [], [⟨2⟩]] }
  faultless := by decide

def twistedBoard : Snapshot :=
  { Snapshot.ofGame twisted with board := #[some ⟨0⟩, none, none, some ⟨0⟩] }

theorem step_moves_exact_twisted :
    twistedBoard.siteCount ≤ UInt32.size ∧
      ((stepFor twisted [triangle] {} .absent).eval twistedBoard).value.moves.count
        (Move.step ⟨0⟩ ⟨0⟩ ⟨2⟩) = 2 ∧
      ((stepFor twisted [triangle] {} .absent).eval twistedBoard).value.moves.count
        (Move.step ⟨0⟩ ⟨3⟩ ⟨2⟩) = 0 ∧
      ¬ ((stepFor twisted [triangle] {} .absent).eval twistedBoard).value.moves.Nodup := by
  have hsize : twistedBoard.siteCount ≤ UInt32.size := by decide
  obtain ⟨hsteps, -, hnodup⟩ := (step_moves_exact twisted [triangle] {} .absent).1 twistedBoard hsize
  refine ⟨hsize, (hsteps.count ⟨0⟩ ⟨2⟩).trans (by decide), (hsteps.count ⟨3⟩ ⟨2⟩).trans (by decide),
    fun hno => ?_⟩
  exact absurd (hnodup.mp hno ⟨0⟩ (by decide) ⟨2⟩ (by decide)) (by decide)

end Rule
end LegalMoves
