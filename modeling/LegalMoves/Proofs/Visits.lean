import LegalMoves.Proofs.Erasure
import LegalMoves.Proofs.Preparation
import Mathlib.Data.List.Count
import Mathlib.Data.List.Flatten
import Mathlib.Data.List.Nodup

set_option autoImplicit false

namespace LegalMoves

/-- A counted rule outside of all chains, and the parts that are asked before its turn: at each
priority above it those that come first. -/
structure Spot where
  id : String
  before : List Rule

namespace Spot

def behind (part : Rule) (p : Spot) : Spot := { p with before := part :: p.before }

def prepared (g : Game) (p : Spot) : Spot := { p with before := p.before.map (Rule.prepared g) }

def Asked (s : Snapshot) (p : Spot) : Prop := ∀ part ∈ p.before, part.moves s = []

instance (s : Snapshot) (p : Spot) : Decidable (p.Asked s) :=
  inferInstanceAs (Decidable (∀ part ∈ p.before, part.moves s = []))

theorem asked_behind_iff {s : Snapshot} {part : Rule} {p : Spot} :
    (p.behind part).Asked s ↔ part.moves s = [] ∧ p.Asked s := by
  simp [behind, Asked]

theorem filter_behind_of_nil {s : Snapshot} {part : Rule} (h : part.moves s = [])
    (ps : List Spot) :
    (ps.map (behind part)).filter (·.Asked s) = (ps.filter (·.Asked s)).map (behind part) := by
  simp [List.filter_map, Function.comp_def, asked_behind_iff, h]

theorem filter_behind_of_ne_nil {s : Snapshot} {part : Rule} (h : part.moves s ≠ [])
    (ps : List Spot) : (ps.map (behind part)).filter (·.Asked s) = [] := by
  simp [List.filter_map, Function.comp_def, asked_behind_iff, h]

end Spot

mutual

/-- The counted rules of a tree outside of its chains, in the order of the tree. -/
def Rule.spots : Rule → List Spot
  | .leaf _ _ _ => []
  | .compound .union parts _ _ => Rule.spotsEach parts
  | .compound .priority parts _ _ => Rule.spotsInTurn parts
  | .counted id inner => ⟨id, []⟩ :: inner.spots

def Rule.spotsEach : List Rule → List Spot
  | [] => []
  | rule :: rules => rule.spots ++ Rule.spotsEach rules

def Rule.spotsInTurn : List Rule → List Spot
  | [] => []
  | rule :: rules => rule.spots ++ (Rule.spotsInTurn rules).map (Spot.behind rule)

end

namespace Tally

theorem ofEvents_prepared (id : String) (ids : List String) :
    ofEvents id (ids.map .prepared) = { prepared := ids.count id } := by
  have hinjective : Function.Injective Event.prepared := fun _ _ => Event.prepared.inj
  simp [ofEvents, List.count_map_of_injective _ _ hinjective, List.count_eq_zero]

theorem ofEvents_evaluated (id : String) (ids : List String) :
    ofEvents id (ids.map .evaluated) = { evaluated := ids.count id } := by
  have hinjective : Function.Injective Event.evaluated := fun _ _ => Event.evaluated.inj
  simp [ofEvents, List.count_map_of_injective _ _ hinjective, List.count_eq_zero]

end Tally

namespace Rule

variable {rule : Rule} {parts : List Rule} {s : Snapshot}

theorem events_prepareAll (g : Game) (rules : List Rule) :
    (prepareAll g rules).events = rules.flatMap fun rule => (rule.prepare g).events := by
  induction rules with
  | nil => rfl
  | cons rule rules ih => simp [prepareAll, ih]

theorem events_prepare (g : Game) (rule : Rule) :
    (rule.prepare g).events = rule.counters.map .prepared := by
  induction rule using tree_induction
    (C := fun chain => (chain.prepare g).events = chain.counters.map .prepared) with
  | leaf own marks chain ih => simp [prepare, counters, ih]
  | compound kind parts marks chain ihs ih =>
    have hparts : (parts.flatMap fun part => (part.prepare g).events) =
        parts.flatMap fun part => part.counters.map .prepared := List.flatMap_congr ihs
    simp [prepare, counters, events_prepareAll, hparts, ih, List.map_flatMap]
  | counted id inner ih => simp [prepare, counters, ih]
  | absent => rfl
  | attached id follow ih => simpa [Chain.prepare, Chain.counters] using ih

theorem mem_counters_iff {id : String} :
    id ∈ rule.counters ↔ ∃ inner, rule.Reaches (.counted id inner) := by
  induction rule using tree_induction
    (C := fun chain => id ∈ chain.counters ↔ ∃ inner, chain.Reaches (.counted id inner)) with
  | leaf own marks chain ih => simp [counters, reaches_leaf_iff, ih]
  | compound kind parts marks chain ihs ih =>
    rw [counters, countersAll_eq_flatMap, List.mem_append, List.mem_flatMap, ih]
    constructor
    · rintro (⟨part, hmem, hid⟩ | ⟨inner, hreach⟩)
      · obtain ⟨inner, hreach⟩ := (ihs part hmem).mp hid
        exact ⟨inner, reaches_compound_iff.mpr (Or.inr (Or.inl ⟨part, hmem, hreach⟩))⟩
      · exact ⟨inner, reaches_compound_iff.mpr (Or.inr (Or.inr hreach))⟩
    · rintro ⟨inner, hreach⟩
      rcases reaches_compound_iff.mp hreach with hself | ⟨part, hmem, hpart⟩ | hchain
      · cases hself
      · exact Or.inl ⟨part, hmem, (ihs part hmem).mpr ⟨inner, hpart⟩⟩
      · exact Or.inr ⟨inner, hchain⟩
  | counted name inner ih => simp [counters, reaches_counted_iff, exists_or, ih]
  | absent => simp [Chain.counters]
  | attached id follow ih => exact ih

theorem events_evaluateAll
    (h : ∀ part ∈ parts, (part.evaluate s).events =
      (part.spots.filter (·.Asked s)).map fun p => .evaluated p.id) :
    (evaluateAll parts s).events =
      ((spotsEach parts).filter (·.Asked s)).map fun p => .evaluated p.id := by
  induction parts with
  | nil => rfl
  | cons part parts ih =>
    have hpart := h part (by simp)
    have hothers := ih fun other hmem => h other (by simp [hmem])
    simp [evaluateAll, spotsEach, hpart, hothers]

theorem events_evaluateFirst
    (h : ∀ part ∈ parts, (part.evaluate s).events =
      (part.spots.filter (·.Asked s)).map fun p => .evaluated p.id) :
    (evaluateFirst parts s).events =
      ((spotsInTurn parts).filter (·.Asked s)).map fun p => .evaluated p.id := by
  induction parts with
  | nil => rfl
  | cons part parts ih =>
    have hpart := h part (by simp)
    have hothers := ih fun other hmem => h other (by simp [hmem])
    rw [spotsInTurn, List.filter_append, List.map_append]
    by_cases hm : part.moves s = []
    · rw [Spot.filter_behind_of_nil hm]
      simp [evaluateFirst, hm, hpart, hothers, Function.comp_def, Spot.behind]
    · rw [Spot.filter_behind_of_ne_nil hm]
      simp [evaluateFirst, hm, hpart]

theorem events_evaluate (rule : Rule) (s : Snapshot) :
    (rule.evaluate s).events =
      (rule.spots.filter (·.Asked s)).map fun p => .evaluated p.id := by
  induction rule using part_induction with
  | leaf own marks chain => rfl
  | compound kind parts marks chain ih =>
    cases kind with
    | union => simpa [evaluate, spots] using events_evaluateAll ih
    | priority => simpa [evaluate, spots] using events_evaluateFirst ih
  | counted id inner ih =>
    have hself : (Spot.mk id []).Asked s := by simp [Spot.Asked]
    simp [evaluate, spots, hself, ih]

theorem map_id_spotsEach (h : ∀ part ∈ parts, part.spots.map Spot.id = part.stripped.counters) :
    (spotsEach parts).map Spot.id = parts.flatMap fun part => part.stripped.counters := by
  induction parts with
  | nil => rfl
  | cons part parts ih =>
    have hothers := ih fun other hmem => h other (by simp [hmem])
    simp [spotsEach, h part (by simp), hothers]

theorem map_id_spotsInTurn (parts : List Rule) :
    (spotsInTurn parts).map Spot.id = (spotsEach parts).map Spot.id := by
  induction parts with
  | nil => rfl
  | cons part parts ih => simp [spotsInTurn, spotsEach, Spot.behind, Function.comp_def, ← ih]

theorem map_id_spots (rule : Rule) : rule.spots.map Spot.id = rule.stripped.counters := by
  induction rule using part_induction with
  | leaf own marks chain => rfl
  | compound kind parts marks chain ih =>
    have hparts := map_id_spotsEach ih
    cases kind with
    | union =>
      simpa [spots, stripped, strippedEach_eq_map, counters, Chain.counters, List.flatMap_map]
        using hparts
    | priority =>
      rw [← map_id_spotsInTurn] at hparts
      simpa [spots, stripped, strippedEach_eq_map, counters, Chain.counters, List.flatMap_map]
        using hparts
  | counted id inner ih => simp [spots, stripped, counters, ih]

theorem counters_stripped_sublist (rule : Rule) : rule.stripped.counters.Sublist rule.counters := by
  induction rule using part_induction with
  | leaf own marks chain => exact List.nil_sublist _
  | compound kind parts marks chain ih =>
    have hparts := List.Sublist.flatMap_right parts ih
    simpa [stripped, strippedEach_eq_map, counters, Chain.counters, List.flatMap_map] using
      hparts.trans (List.sublist_append_left _ chain.counters)
  | counted id inner ih => exact ih.cons_cons id

theorem spotsEach_prepared (g : Game)
    (h : ∀ part ∈ parts, (part.prepared g).spots = part.spots.map (Spot.prepared g)) :
    spotsEach (parts.map (prepared g)) = (spotsEach parts).map (Spot.prepared g) := by
  induction parts with
  | nil => rfl
  | cons part parts ih =>
    have hothers := ih fun other hmem => h other (by simp [hmem])
    simp [spotsEach, h part (by simp), hothers]

theorem spotsInTurn_prepared (g : Game)
    (h : ∀ part ∈ parts, (part.prepared g).spots = part.spots.map (Spot.prepared g)) :
    spotsInTurn (parts.map (prepared g)) = (spotsInTurn parts).map (Spot.prepared g) := by
  induction parts with
  | nil => rfl
  | cons part parts ih =>
    have hothers := ih fun other hmem => h other (by simp [hmem])
    have hbehind : Spot.prepared g ∘ Spot.behind part =
        Spot.behind (part.prepared g) ∘ Spot.prepared g := rfl
    simp [spotsInTurn, h part (by simp), hothers, hbehind]

theorem spots_prepared (g : Game) (rule : Rule) :
    (rule.prepared g).spots = rule.spots.map (Spot.prepared g) := by
  induction rule using part_induction with
  | leaf own marks chain => rfl
  | compound kind parts marks chain ih =>
    rw [prepared_compound]
    cases kind with
    | union => exact spotsEach_prepared g ih
    | priority => exact spotsInTurn_prepared g ih
  | counted id inner ih => simp [spots, Spot.prepared, ih]

end Rule

namespace Compiled

/-- The counted rules that compiled rules ask for their moves. -/
def asked (g : Game) (rule : Rule) (s : Snapshot) : List String :=
  (rule.spots.filter fun p => (p.prepared g).Asked s).map Spot.id

theorem events_compile (g : Game) (rule : Rule) :
    (compile g rule).events = rule.counters.map .prepared := by
  simp [compile, Rule.events_prepare]

theorem events_legalMoves (g : Game) (rule : Rule) (s : Snapshot) :
    ((compile g rule).value.legalMoves s).events =
      (asked g rule s).map .evaluated := by
  rw [legalMoves, root_compile, Rule.eval, Traced.events_bind, Traced.events_pure, List.append_nil,
    Rule.events_evaluate, Rule.spots_prepared]
  simp [asked, List.filter_map, Function.comp_def, Spot.prepared]

theorem asked_sublist (g : Game) (rule : Rule) (s : Snapshot) :
    (asked g rule s).Sublist rule.counters := by
  have hspots : (asked g rule s).Sublist (rule.spots.map Spot.id) :=
    (List.filter_sublist).map Spot.id
  rw [Rule.map_id_spots] at hspots
  exact hspots.trans rule.counters_stripped_sublist

/-- Compiling a tree prepares every counted rule that it reaches, through parts and through chains,
and does nothing else. Its moves for a snapshot then take one evaluation of each counted rule
outside of chains that no priority passes over: all parts before it have no moves. With names that
are not shared, no counted rule is called more than once. -/
theorem compile_calls_each_once (g : Game) (rule : Rule) :
    (compile g rule).events = rule.counters.map .prepared ∧
      (∀ id, id ∈ rule.counters ↔ ∃ inner, rule.Reaches (.counted id inner)) ∧
      (∀ s, ((compile g rule).value.legalMoves s).events = (asked g rule s).map .evaluated) ∧
      rule.spots.map Spot.id = rule.stripped.counters ∧
      (rule.counters.Nodup → ∀ id,
        Tally.ofEvents id (compile g rule).events =
            { prepared := if id ∈ rule.counters then 1 else 0 } ∧
          ∀ s, Tally.ofEvents id ((compile g rule).value.legalMoves s).events =
            { evaluated := if id ∈ asked g rule s then 1 else 0 }) := by
  refine ⟨events_compile g rule, fun id => Rule.mem_counters_iff, events_legalMoves g rule,
    rule.map_id_spots, fun hnames id => ⟨?_, fun s => ?_⟩⟩
  · rw [events_compile, Tally.ofEvents_prepared, hnames.count]
  · have hasked := hnames.sublist (asked_sublist g rule s)
    rw [events_legalMoves, Tally.ofEvents_evaluated, hasked.count]

def countedChoice : Rule :=
  .counted "choice" (.ofParts .priority
    [.counted "steps" (.leaf (.step none) {} (.attached ⟨0⟩
        (.counted "then" (.leaf .pass {} (.attached ⟨1⟩ (.counted "last" (.ofLeaf .pass))))))),
      .counted "places" (.ofLeaf .place), .counted "pass" (.ofLeaf .pass)])

theorem compile_calls_each_once_countedChoice :
    countedChoice.counters.Nodup ∧
      Tally.ofEvents "last" (compile lineOfThree countedChoice).events = { prepared := 1 } ∧
      ((compile lineOfThree countedChoice).value.legalMoves
        { players := 2, board := #[none, some ⟨1⟩, none], players_bounds := by decide }).events =
        [.evaluated "choice", .evaluated "steps", .evaluated "places"] := by
  have hnames : countedChoice.counters.Nodup := by decide
  obtain ⟨-, -, hmoves, -, htally⟩ := compile_calls_each_once lineOfThree countedChoice
  exact ⟨hnames, (htally hnames "last").1, hmoves _⟩

end Compiled
end LegalMoves
