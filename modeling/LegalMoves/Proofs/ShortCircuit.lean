import LegalMoves.Proofs.Needed
import Mathlib.Data.List.Perm.Basic

set_option autoImplicit false

namespace LegalMoves

/-- A move as it arrives at the root, and the names of the counted rules that it comes through, the
innermost first. -/
structure Arrival where
  move : Move
  via : List String
  deriving DecidableEq, Repr

namespace Arrival

def stamp (marks : Marks) (chain : Chain) (a : Arrival) : Arrival :=
  { a with move := a.move.stamp marks chain }

def through (id : String) (a : Arrival) : Arrival := { a with via := a.via ++ [id] }

def draws (a : Arrival) : List Event := a.via.map Event.drawn

end Arrival

mutual

/-- The moves of a tree with the counted rules on their way. -/
def Rule.arrivals (s : Snapshot) : Rule → List Arrival
  | .leaf own marks chain => (own.moves s).map fun m => ⟨m.stamp marks chain, []⟩
  | .compound .union parts marks chain =>
    (Rule.arrivalsEach s parts).flatten.map (Arrival.stamp marks chain)
  | .compound .priority parts marks chain =>
    (((Rule.arrivalsEach s parts).find? (!·.isEmpty)).getD []).map (Arrival.stamp marks chain)
  | .counted id inner => (inner.arrivals s).map (Arrival.through id)

def Rule.arrivalsEach (s : Snapshot) : List Rule → List (List Arrival)
  | [] => []
  | rule :: rules => rule.arrivals s :: Rule.arrivalsEach s rules

end

namespace Rule

open MoveStream

variable {n : Nat} {rule : Rule} {parts : List Rule} {s : Snapshot}

theorem arrivalsEach_eq_map (s : Snapshot) (rules : List Rule) :
    arrivalsEach s rules = rules.map (arrivals s) := by
  induction rules with
  | nil => rfl
  | cons rule rules ih => simp [arrivalsEach, ih]

theorem arrivals_union (s : Snapshot) (parts : List Rule) (marks : Marks) (chain : Chain) :
    (Rule.compound .union parts marks chain).arrivals s =
      (parts.flatMap (arrivals s)).map (Arrival.stamp marks chain) := by
  rw [arrivals, arrivalsEach_eq_map, List.flatMap_def]

theorem arrivals_priority (s : Snapshot) (parts : List Rule) (marks : Marks) (chain : Chain) :
    (Rule.compound .priority parts marks chain).arrivals s =
      (((parts.map (arrivals s)).find? (!·.isEmpty)).getD []).map (Arrival.stamp marks chain) := by
  rw [arrivals, arrivalsEach_eq_map]

theorem firstArrivals_move (h : ∀ part ∈ parts, (part.arrivals s).map Arrival.move = part.moves s) :
    (((parts.map (arrivals s)).find? (!·.isEmpty)).getD []).map Arrival.move =
      ((parts.map (·.moves s)).find? (!·.isEmpty)).getD [] := by
  induction parts with
  | nil => rfl
  | cons part parts ih =>
    have hpart := h part (by simp)
    have hothers := ih fun other hmem => h other (by simp [hmem])
    by_cases ha : part.arrivals s = []
    · have hm : part.moves s = [] := by rw [← hpart, ha]; rfl
      simpa [ha, hm] using hothers
    · have hm : part.moves s ≠ [] := by simpa [← hpart] using ha
      simp [ha, hm, hpart]

theorem map_move_arrivals (rule : Rule) (s : Snapshot) :
    (rule.arrivals s).map Arrival.move = rule.moves s := by
  induction rule using part_induction with
  | leaf own marks chain => simp [arrivals]
  | compound kind parts marks chain ih =>
    have hstamp : Arrival.move ∘ Arrival.stamp marks chain = Move.stamp marks chain ∘ Arrival.move :=
      rfl
    cases kind with
    | union =>
      rw [arrivals_union, moves_union, List.map_map, hstamp, ← List.map_map, List.map_flatMap,
        List.flatMap_congr ih]
    | priority =>
      rw [arrivals_priority, moves_priority, List.map_map, hstamp, ← List.map_map,
        firstArrivals_move ih]
  | counted id inner ih =>
    rw [arrivals, List.map_map, moves_counted, ← ih]
    rfl

theorem length_arrivals (rule : Rule) (s : Snapshot) :
    (rule.arrivals s).length = (rule.moves s).length := by
  rw [← map_move_arrivals, List.length_map]

theorem arrivals_eq_nil_iff : rule.arrivals s = [] ↔ rule.moves s = [] := by
  rw [← List.length_eq_zero_iff, length_arrivals, List.length_eq_zero_iff]

/-- What a rule meets up to its `n`-th move: the opening of each counted rule of its needed part,
and the draws of these moves. -/
def FrontEvents (s : Snapshot) (rule : Rule) : Prop :=
  ∀ n, 0 < n → ((rule.flow s).cut n).eventList.Perm
    ((rule.needed s n).counters.map .opened ++ ((rule.arrivals s).take n).flatMap Arrival.draws)

theorem events_openAll (hfaithful : ∀ part ∈ parts, part.Faithful)
    (h : ∀ part ∈ parts, part.FrontEvents s) (hn : 0 < n) :
    ((openAll parts s).cut n).eventList.Perm
      (((neededUntil s n parts).flatMap counters).map .opened ++
        ((parts.flatMap (arrivals s)).take n).flatMap Arrival.draws) := by
  induction parts generalizing n with
  | nil =>
    obtain ⟨n, rfl⟩ := Nat.exists_eq_add_one_of_ne_zero (Nat.ne_zero_of_lt hn)
    simp [openAll, cut, eventList, neededUntil]
  | cons part parts ih =>
    have hpart := h part (by simp) n hn
    have hlist := toList_flow (hfaithful part (by simp)) s
    have hlength := length_arrivals part s
    by_cases hle : n ≤ (part.moves s).length
    · rw [openAll_cons, cut_append_of_le (by rw [hlist]; exact hle), neededUntil, if_pos hle,
        List.flatMap_cons, List.flatMap_cons, List.take_append_of_le_length (by omega)]
      simpa using hpart
    · have hlt : (part.moves s).length < n := Nat.lt_of_not_le hle
      have hothers := ih (fun other hmem => hfaithful other (by simp [hmem]))
        (fun other hmem => h other (by simp [hmem])) (Nat.sub_pos_of_lt hlt)
      rw [cut_of_length_lt (by rw [hlist]; exact hlt),
        List.take_of_length_le (by omega)] at hpart
      rw [openAll_cons, cut_append_of_lt (by rw [hlist]; exact hlt), eventList_append, neededUntil,
        if_neg hle, List.flatMap_cons, List.flatMap_cons, List.take_append,
        List.take_of_length_le (by omega), List.map_append, List.flatMap_append, hlist, hlength]
      refine (hpart.append hothers).trans ?_
      -- What the later parts open goes before the draws of this part.
      simp only [List.append_assoc]
      exact List.Perm.append_left _ (List.perm_append_comm_assoc _ _ _)

theorem events_flowFirst (hfaithful : ∀ part ∈ parts, part.Faithful)
    (h : ∀ part ∈ parts, part.FrontEvents s) (hn : 0 < n) :
    ((flowFirst parts s).cut n).eventList.Perm
      (((neededFirst s n parts).flatMap counters).map .opened ++
        ((((parts.map (arrivals s)).find? (!·.isEmpty)).getD []).take n).flatMap
          Arrival.draws) := by
  induction parts with
  | nil =>
    obtain ⟨n, rfl⟩ := Nat.exists_eq_add_one_of_ne_zero (Nat.ne_zero_of_lt hn)
    simp [flowFirst, openFirst, notes, cut, eventList, neededFirst]
  | cons part parts ih =>
    have hpart := h part (by simp) n hn
    have hlist := toList_flow (hfaithful part (by simp)) s
    have hothers := ih (fun other hmem => hfaithful other (by simp [hmem]))
      fun other hmem => h other (by simp [hmem])
    by_cases hm : part.moves s = []
    · have ha : part.arrivals s = [] := arrivals_eq_nil_iff.mpr hm
      rw [hm] at hlist
      have hlt : (part.flow s).toList.length < n := by simpa [hlist] using hn
      rw [cut_of_length_lt hlt, ha] at hpart
      rw [flowFirst_cons, if_pos hlist, cut_append_of_lt hlt, eventList_append, neededFirst,
        if_pos hm, List.flatMap_cons, List.map_append, List.append_assoc]
      simpa [ha, hlist] using hpart.append hothers
    · have ha : part.arrivals s ≠ [] := fun hnil => hm (arrivals_eq_nil_iff.mp hnil)
      rw [flowFirst_cons, if_neg (by rw [hlist]; exact hm), neededFirst, if_neg hm]
      simpa [ha] using hpart

theorem flatMap_draws_stamp (marks : Marks) (chain : Chain) (n : Nat) (as : List Arrival) :
    ((as.map (Arrival.stamp marks chain)).take n).flatMap Arrival.draws =
      (as.take n).flatMap Arrival.draws := by
  rw [← List.map_take, List.flatMap_map]
  rfl

theorem flatMap_draws_through (id : String) (n : Nat) (as : List Arrival) :
    (((as.map (Arrival.through id)).take n).flatMap Arrival.draws).Perm
      ((as.take n).flatMap Arrival.draws ++
        List.replicate (as.take n).length (.drawn id)) := by
  have hthrough : (fun a : Arrival => (a.through id).draws) =
      fun a => a.draws ++ [Event.drawn id] := by
    funext a
    simp [Arrival.through, Arrival.draws]
  have hnew : List.replicate (as.take n).length (Event.drawn id) =
      (as.take n).flatMap fun _ => [Event.drawn id] := by
    rw [← List.map_const', List.map_eq_flatMap]
  rw [← List.map_take, List.flatMap_map, hthrough, hnew]
  exact (List.flatMap_append_perm _ _ _).symm

theorem frontEvents_leaf {own : Leaf} (hown : own.isCustom = false) (marks : Marks) (chain : Chain)
    (s : Snapshot) : (Rule.leaf own marks chain).FrontEvents s := by
  intro n _
  have hquiet : (((Rule.leaf own marks chain).flow s).cut n).eventList = [] := by
    have hsub := eventList_cut_sublist ((own.stream s).map (Move.stamp marks chain)) n
    rw [eventList_map, Leaf.eventList_stream hown] at hsub
    exact List.sublist_nil.mp hsub
  have hdraws : ∀ a ∈ (arrivals s (Rule.leaf own marks chain)).take n, a.draws = [] := by
    intro a hmem
    obtain ⟨m, _, rfl⟩ := List.mem_map.mp (List.mem_of_mem_take hmem)
    rfl
  rw [hquiet, needed, counters, Chain.counters_hollow, List.flatMap_eq_nil_iff.mpr hdraws]
  exact List.Perm.refl []

theorem FrontEvents.counted (h : rule.FrontEvents s) (hfaithful : rule.Faithful) (id : String) :
    (Rule.counted id rule).FrontEvents s := by
  intro n hn
  have hlength : ((rule.flow s).cut n).toList.length = ((rule.arrivals s).take n).length := by
    rw [toList_cut, toList_flow hfaithful, List.length_take, List.length_take, length_arrivals]
  have hopened : (((Rule.counted id rule).flow s).cut n).eventList =
      .opened id :: (((rule.flow s).cut n).counted id).eventList := by
    obtain ⟨n, rfl⟩ := Nat.exists_eq_add_one_of_ne_zero (Nat.ne_zero_of_lt hn)
    rw [flow_counted, cut, cut_counted, eventList]
  have hdraws := flatMap_draws_through id n (rule.arrivals s)
  rw [hopened, needed, counters, arrivals, List.map_cons, List.cons_append]
  refine List.Perm.cons _ ?_
  calc
    List.Perm (((rule.flow s).cut n).counted id).eventList
        (((rule.flow s).cut n).eventList ++
          List.replicate ((rule.flow s).cut n).toList.length (.drawn id)) :=
      eventList_counted_perm id _
    List.Perm _ ((rule.needed s n).counters.map .opened ++
        ((rule.arrivals s).take n).flatMap Arrival.draws ++
        List.replicate ((rule.arrivals s).take n).length (.drawn id)) := by
      rw [hlength]
      exact (h n hn).append_right _
    List.Perm _ ((rule.needed s n).counters.map .opened ++
        (((rule.arrivals s).map (Arrival.through id)).take n).flatMap Arrival.draws) := by
      rw [List.append_assoc]
      exact hdraws.symm.append_left _

theorem frontEvents (h : rule.customs = []) (s : Snapshot) : rule.FrontEvents s := by
  induction rule using part_induction with
  | leaf own marks chain =>
    cases hown : own.isCustom with
    | true => simp [customs, hown] at h
    | false => exact frontEvents_leaf hown marks chain s
  | compound kind parts marks chain ih =>
    rw [customs, customsAll_eq_flatMap, List.flatMap_eq_nil_iff] at h
    have hfaithful : ∀ part ∈ parts, part.Faithful := fun part hmem =>
      faithful_of_customs_nil (h part hmem)
    have hparts : ∀ part ∈ parts, part.FrontEvents s := fun part hmem => ih part hmem (h part hmem)
    intro n hn
    -- The compound itself meets nothing, and stamping a move leaves its draws alone.
    cases kind with
    | union =>
      rw [flow_union, cut_map, eventList_map, needed, arrivals_union, flatMap_draws_stamp]
      simpa [counters, Chain.counters_hollow] using events_openAll hfaithful hparts hn
    | priority =>
      rw [flow_priority, cut_map, eventList_map, needed, arrivals_priority, flatMap_draws_stamp]
      simpa [counters, Chain.counters_hollow] using events_flowFirst hfaithful hparts hn
  | counted id inner ih => exact (ih h).counted (faithful_of_customs_nil h) id

/-- The law of short circuit. Let `k` be the place of the first move of a tree that a probe wants. The
probe sees the moves up to that one. It opens the counted rules of what the first `k + 1` moves need,
each once, draws each of these moves from the counted rules on its way, and nothing else happens: no
rule is evaluated, and no other rule is opened. Any tree with the same needed part answers alike. -/
theorem probeWith_reads_front (h : rule.customs = []) (test : Cursor.Test) (s : Snapshot) {k : Nat}
    (hk : Cursor.firstHit (test s) [] (rule.eval s).value.moves = k) :
    (rule.probeWith test s).value =
        ⟨decide (k < (rule.eval s).value.moves.length),
          (rule.eval s).value.moves.take (k + 1)⟩ ∧
      (rule.arrivals s).map Arrival.move = (rule.eval s).value.moves ∧
      (rule.probeWith test s).events.Perm
        ((rule.needed s (k + 1)).counters.map .opened ++
          ((rule.arrivals s).take (k + 1)).flatMap Arrival.draws) ∧
      (rule.needed s (k + 1)).counters.Sublist rule.counters ∧
      ∀ other : Rule, other.needed s (k + 1) = rule.needed s (k + 1) →
        other.probeWith test s = rule.probeWith test s := by
  have hmoves := toList_flow (faithful_of_customs_nil h) s
  have hhit : Cursor.firstHit (test s) [] (rule.flow s).toList = k := by rw [hmoves]; exact hk
  refine ⟨?_, map_move_arrivals rule s, ?_, counters_needed_sublist rule s (k + 1), ?_⟩
  · rw [probeWith_eq_look, Cursor.value_look, hhit, hmoves, value_eval]
  · rw [probeWith_eq_look, Cursor.events_look, hhit]
    exact frontEvents h s (k + 1) (Nat.succ_pos k)
  · intro other hneeded
    have hcustoms : (rule.needed s (k + 1)).customs = [] := customs_needed h s (k + 1)
    have hfront : (rule.flow s).cut (k + 1) = (other.flow s).cut (k + 1) := by
      rw [sameFront rule s (k + 1) (Nat.succ_pos k) hcustoms,
        sameFront other s (k + 1) (Nat.succ_pos k) (by rw [hneeded]; exact hcustoms), hneeded]
    rw [probeWith_eq_look, probeWith_eq_look]
    exact Cursor.look_eq_of_cut_eq (test s) [] hfront (by omega)

def stepElsePlace (later last follow : Rule) : Rule :=
  .counted "root" (.ofParts .priority
    [.counted "steps" (.ofLeaf (.step none)),
      .ofParts .union [.counted "places" (.leaf .place {} (.attached ⟨0⟩ follow)), later], last])

def countedPass : Rule := .counted "pass" (.ofLeaf .pass)

def lawless : Rule :=
  .ofLeaf (.custom
    { text := "lawless", moves := fun _ => [], stream? := some fun s => .ofList [Move.pass s.mover] })

def emptyRow : Snapshot :=
  { players := 1, board := #[none, none, none], players_bounds := by decide }

def toSecondSite : Cursor.Test := fun _ _ m => m.target == ⟨1⟩

theorem probeWith_reads_front_emptyRow :
    (stepElsePlace countedPass countedPass countedPass).customs = [] ∧
      Cursor.firstHit (toSecondSite emptyRow) []
        ((stepElsePlace countedPass countedPass countedPass).eval emptyRow).value.moves = 1 ∧
      ((stepElsePlace countedPass countedPass countedPass).probeWith
          toSecondSite emptyRow).events.Perm
        [.opened "root", .opened "steps", .opened "places", .drawn "places", .drawn "root",
          .drawn "places", .drawn "root"] ∧
      (stepElsePlace lawless lawless lawless).probeWith toSecondSite emptyRow =
        (stepElsePlace countedPass countedPass countedPass).probeWith toSecondSite emptyRow := by
  have hcustoms : (stepElsePlace countedPass countedPass countedPass).customs = [] := rfl
  have hhit : Cursor.firstHit (toSecondSite emptyRow) []
      ((stepElsePlace countedPass countedPass countedPass).eval emptyRow).value.moves = 1 := rfl
  obtain ⟨_, _, hevents, _, hother⟩ := probeWith_reads_front hcustoms toSecondSite emptyRow hhit
  exact ⟨hcustoms, hhit, hevents, hother _ rfl⟩

end Rule
end LegalMoves
