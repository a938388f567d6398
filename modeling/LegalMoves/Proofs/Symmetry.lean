import LegalMoves.Lists
import LegalMoves.Proofs.Erasure
import LegalMoves.Proofs.Grouping
import LegalMoves.Proofs.Reachability
import Mathlib.Logic.Equiv.Basic

set_option autoImplicit false

namespace LegalMoves

variable {π : Equiv.Perm Player}

def Move.renamed (π : Equiv.Perm Player) (m : Move) : Move := { m with mover := π m.mover }

def MoveSet.renamed (π : Equiv.Perm Player) (set : MoveSet) : MoveSet :=
  { set with moves := set.moves.map (Move.renamed π) }

def Snapshot.renamed (π : Equiv.Perm Player) (s : Snapshot) : Snapshot :=
  { s with board := s.board.map (Option.map π), mover := π s.mover, previous := π s.previous }

/-- The second snapshot is the first with its players renamed, as far as the owners of the sites and
the player to move go. -/
structure Snapshot.Mirrors (π : Equiv.Perm Player) (s t : Snapshot) : Prop where
  board : t.board = s.board.map (Option.map π)
  mover : t.mover = π s.mover

/-- A cursor over the renamed moves, for another snapshot. -/
def Cursor.mirrored (π : Equiv.Perm Player) (t : Snapshot) (c : Cursor) : Cursor :=
  { c with snapshot := t, stream := c.stream.map (Move.renamed π) }

mutual

def Rule.renamed (π : Equiv.Perm Player) : Rule → Rule
  | .leaf own marks chain => .leaf (own.renamed π) marks (chain.renamed π)
  | .compound kind parts marks chain =>
    .compound kind (Rule.renamedEach π parts) marks (chain.renamed π)
  | .counted id inner => .counted id (inner.renamed π)

def Rule.renamedEach (π : Equiv.Perm Player) : List Rule → List Rule
  | [] => []
  | rule :: rules => rule.renamed π :: Rule.renamedEach π rules

def Chain.renamed (π : Equiv.Perm Player) : Chain → Chain
  | .absent => .absent
  | .attached id rule => .attached id (rule.renamed π)

def Chain.renamedEach (π : Equiv.Perm Player) : List Chain → List Chain
  | [] => []
  | chain :: chains => chain.renamed π :: Chain.renamedEach π chains

/-- Only listed moves name players, those in the chains that come with moves among them. -/
def Leaf.renamed (π : Equiv.Perm Player) : Leaf → Leaf
  | .listed ms declared carried =>
    .listed (ms.map (Move.renamed π)) declared (Chain.renamedEach π carried)
  | .custom ⟨text, moves, stream?, carried⟩ =>
    .custom ⟨text, moves, stream?, Chain.renamedEach π carried⟩
  | .pass => .pass
  | .place => .place
  | .step table => .step table

end

@[simp] theorem Chain.id?_renamed (chain : Chain) : (chain.renamed π).id? = chain.id? := by
  cases chain with
  | absent => rfl
  | attached id rule => rfl

theorem Chain.renamedEach_eq_map (chains : List Chain) :
    renamedEach π chains = chains.map (renamed π) := by
  induction chains with
  | nil => rfl
  | cons chain chains ih => rw [renamedEach, ih, List.map_cons]

theorem Move.stamp_renamed (marks : Marks) (chain : Chain) :
    Move.stamp marks (chain.renamed π) = Move.stamp marks chain := by
  funext m
  simp [stamp]

theorem Move.renamed_comp_stamp (marks : Marks) (chain : Chain) :
    Move.renamed π ∘ Move.stamp marks chain = Move.stamp marks chain ∘ Move.renamed π := rfl

namespace MoveStream

theorem map_stamp_renamed (marks : Marks) (chain : Chain) (s : MoveStream) :
    (s.map (Move.renamed π)).map (Move.stamp marks chain) =
      (s.map (Move.stamp marks chain)).map (Move.renamed π) := by
  rw [map_map, map_map, Move.renamed_comp_stamp]

end MoveStream

namespace Snapshot.Mirrors

variable {s t : Snapshot}

theorem renamed (π : Equiv.Perm Player) (s : Snapshot) : s.Mirrors π (s.renamed π) := ⟨rfl, rfl⟩

theorem siteCount (h : s.Mirrors π t) : t.siteCount = s.siteCount := by
  simp [Snapshot.siteCount, h.board]

theorem sites (h : s.Mirrors π t) : t.sites = s.sites := by
  rw [Snapshot.sites, Snapshot.sites, h.siteCount]

theorem isEmpty (h : s.Mirrors π t) : t.isEmpty = s.isEmpty := by
  funext site
  cases hsite : s.board[site.toNat]? with
  | none => simp [Snapshot.isEmpty, h.board, hsite]
  | some owner => cases owner <;> simp [Snapshot.isEmpty, h.board, hsite]

theorem sitesOf (h : s.Mirrors π t) (p : Player) : t.sitesOf (π p) = s.sitesOf p := by
  have howner : ∀ owner : Option Player, (owner.map π == some (π p)) = (owner == some p) := by
    intro owner
    cases owner <;> simp
  simp [Snapshot.sitesOf, h.board, List.zipIdx_map, List.filter_map, Function.comp_def, howner]

end Snapshot.Mirrors

namespace Leaf

variable {own : Leaf} {s t : Snapshot}

/-- The renamed leaf has the renamed moves in the second snapshot, at once and one by one. -/
structure Renames (π : Equiv.Perm Player) (s t : Snapshot) (own : Leaf) : Prop where
  moves : (own.renamed π).moves t = (own.moves s).map (Move.renamed π)
  stream : (own.renamed π).stream t = (own.stream s).map (Move.renamed π)

theorem isCustom_renamed (own : Leaf) : (own.renamed π).isCustom = own.isCustom := by
  cases own with
  | custom rule => cases rule; rfl
  | _ => rfl

theorem isLazy_renamed (own : Leaf) : (own.renamed π).isLazy = own.isLazy := by
  cases own with
  | custom rule => cases rule; rfl
  | _ => rfl

theorem carried_renamed (own : Leaf) :
    (own.renamed π).carried = own.carried.map (Chain.renamed π) := by
  cases own with
  | listed ms declared carried => exact Chain.renamedEach_eq_map carried
  | custom rule => cases rule; exact Chain.renamedEach_eq_map _
  | _ => rfl

theorem moves_renamed (h : own.isCustom = false) (hst : s.Mirrors π t) :
    (own.renamed π).moves t = (own.moves s).map (Move.renamed π) := by
  cases own with
  | custom rule => simp [isCustom] at h
  | pass => simp [renamed, moves, Move.pass, Move.renamed, hst.mover]
  | place =>
    simp only [renamed, moves, hst.sites, List.map_flatMap]
    refine List.flatMap_congr fun site _ => ?_
    by_cases hsite : s.isEmpty site = true
    · simp [placements, hst.isEmpty, hst.mover, hsite, Move.add, Move.renamed]
    · simp [placements, hst.isEmpty, hsite]
  | step table =>
    simp only [renamed, moves, hst.mover, hst.sitesOf, List.map_flatMap]
    refine List.flatMap_congr fun origin _ => ?_
    simp only [steps, hst.isEmpty, hst.mover, List.map_map]
    rfl
  | listed ms declared carried => rfl

theorem renames_of_mirrors (h : own.isCustom = false) (hst : s.Mirrors π t) :
    own.Renames π s t := by
  have hmoves := moves_renamed h hst
  refine ⟨hmoves, ?_⟩
  rw [stream_eq_ofList ((isCustom_renamed own).trans h), stream_eq_ofList h, hmoves,
    MoveStream.map_ofList]

end Leaf

namespace Rule

variable {rule : Rule} {parts : List Rule} {s t : Snapshot}

theorem renamedEach_eq_map (rules : List Rule) :
    renamedEach π rules = rules.map (renamed π) := by
  induction rules with
  | nil => rfl
  | cons rule rules ih => simp [renamedEach, ih]

theorem chain_renamed (rule : Rule) : (rule.renamed π).chain = rule.chain.renamed π := by
  fun_induction Rule.chain rule with
  | case1 own marks chain => rfl
  | case2 kind parts marks chain => rfl
  | case3 id inner ih => simpa [renamed, Rule.chain] using ih

theorem evaluateAll_renamed
    (h : ∀ part ∈ parts,
      (part.renamed π).evaluate t = List.map (Move.renamed π) <$> part.evaluate s) :
    evaluateAll (parts.map (renamed π)) t = List.map (Move.renamed π) <$> evaluateAll parts s := by
  induction parts with
  | nil => rfl
  | cons part parts ih =>
    have hothers := ih fun other hmem => h other (by simp [hmem])
    ext1 <;> simp [evaluateAll, h part (by simp), hothers]

theorem evaluateFirst_renamed
    (h : ∀ part ∈ parts,
      (part.renamed π).evaluate t = List.map (Move.renamed π) <$> part.evaluate s) :
    evaluateFirst (parts.map (renamed π)) t =
      List.map (Move.renamed π) <$> evaluateFirst parts s := by
  induction parts with
  | nil => rfl
  | cons part parts ih =>
    have hothers := ih fun other hmem => h other (by simp [hmem])
    by_cases hm : part.moves s = []
    · ext1 <;> simp [evaluateFirst, h part (by simp), hm, hothers]
    · ext1 <;> simp [evaluateFirst, h part (by simp), hm]

theorem evaluate_renamed (h : ∀ own ∈ rule.leaves, own.Renames π s t) :
    (rule.renamed π).evaluate t = List.map (Move.renamed π) <$> rule.evaluate s := by
  induction rule using part_induction with
  | leaf own marks chain =>
    have hown := (h own (by simp [leaves])).moves
    simp [renamed, evaluate, hown, Move.stamp_renamed, Move.renamed_comp_stamp]
  | compound kind parts marks chain ih =>
    have hparts : ∀ part ∈ parts,
        (part.renamed π).evaluate t = List.map (Move.renamed π) <$> part.evaluate s :=
      fun part hmem => ih part hmem fun own hown => h own (leaves_subset_of_mem_parts hmem hown)
    rw [renamed, renamedEach_eq_map]
    cases kind with
    | union =>
      have hall := evaluateAll_renamed hparts
      simp [evaluate, hall, Move.stamp_renamed, Move.renamed_comp_stamp]
    | priority =>
      have hfirst := evaluateFirst_renamed hparts
      simp [evaluate, hfirst, Move.stamp_renamed, Move.renamed_comp_stamp]
  | counted id inner ih => simp [renamed, evaluate, ih h]

theorem eval_renamed (h : ∀ own ∈ rule.leaves, own.Renames π s t) :
    (rule.renamed π).eval t = MoveSet.renamed π <$> rule.eval s := by
  simp [eval, evaluate_renamed h, MoveSet.renamed, chain_renamed]

theorem openAll_renamed
    (h : ∀ part ∈ parts, (part.renamed π).cursor t = Cursor.mirrored π t <$> part.cursor s) :
    openAll (parts.map (renamed π)) t = (openAll parts s).map (Move.renamed π) := by
  induction parts with
  | nil => rfl
  | cons part parts ih =>
    have hothers := ih fun other hmem => h other (by simp [hmem])
    simp [openAll, h part (by simp), hothers, MoveStream.map_notes, MoveStream.map_append,
      Cursor.mirrored]

theorem openFirst_renamed
    (h : ∀ part ∈ parts, (part.renamed π).cursor t = Cursor.mirrored π t <$> part.cursor s) :
    openFirst (parts.map (renamed π)) t =
      MoveStream.map (Move.renamed π) <$> openFirst parts s := by
  induction parts with
  | nil => rfl
  | cons part parts ih =>
    have hothers := ih fun other hmem => h other (by simp [hmem])
    rw [List.map_cons, openFirst_cons, openFirst_cons, h part (by simp)]
    by_cases hready : (part.cursor s).value.stream.peek.value.isReady = true
    · ext1 <;> simp [Cursor.mirrored, MoveStream.peek_map, MoveStream.isReady_map, hready]
    · ext1 <;> simp [Cursor.mirrored, MoveStream.peek_map, MoveStream.isReady_map, hready, hothers]

theorem cursor_renamed (h : ∀ own ∈ rule.leaves, own.Renames π s t) :
    (rule.renamed π).cursor t = Cursor.mirrored π t <$> rule.cursor s := by
  induction rule using part_induction with
  | leaf own marks chain =>
    have hown := (h own (by simp [leaves])).stream
    simp [renamed, cursor, hown, Move.stamp_renamed, MoveStream.map_stamp_renamed, Cursor.mirrored,
      Leaf.isLazy_renamed]
  | compound kind parts marks chain ih =>
    have hparts : ∀ part ∈ parts,
        (part.renamed π).cursor t = Cursor.mirrored π t <$> part.cursor s :=
      fun part hmem => ih part hmem fun own hown => h own (leaves_subset_of_mem_parts hmem hown)
    rw [renamed, renamedEach_eq_map]
    cases kind with
    | union =>
      have hall := openAll_renamed hparts
      simp [cursor, hall, Move.stamp_renamed, MoveStream.map_stamp_renamed, Cursor.mirrored,
        Cursor.onDemand]
    | priority =>
      have hfirst := openFirst_renamed hparts
      simp [cursor, hfirst, Move.stamp_renamed, MoveStream.map_stamp_renamed, Cursor.mirrored,
        Cursor.onDemand]
  | counted id inner ih =>
    simp [renamed, cursor, ih h, Cursor.mirrored, Cursor.onDemand, MoveStream.map_counted]

theorem flow_renamed (h : ∀ own ∈ rule.leaves, own.Renames π s t) :
    (rule.renamed π).flow t = (rule.flow s).map (Move.renamed π) := by
  simp [flow, cursor_renamed h, MoveStream.map_notes, Cursor.mirrored]

theorem probeWith_renamed (h : ∀ own ∈ rule.leaves, own.Renames π s t) (test test' : Cursor.Test)
    (htest : ∀ shown m, test' t (shown.map (Move.renamed π)) (m.renamed π) = test s shown m) :
    (rule.renamed π).probeWith test' t =
      Finding.map (Move.renamed π) <$> rule.probeWith test s := by
  rw [probeWith_eq_look, probeWith_eq_look, flow_renamed h]
  exact Cursor.look_map (Move.renamed π) htest [] (rule.flow s)

theorem canMoveTo_renamed (h : ∀ own ∈ rule.leaves, own.Renames π s t) (target : Site) :
    (rule.renamed π).canMoveTo target t = rule.canMoveTo target s := by
  have hprobe := probeWith_renamed h (fun _ _ m => m.target == target)
    (fun _ _ m => m.target == target) fun _ _ => rfl
  rw [canMoveTo_eq_probeWith, canMoveTo_eq_probeWith, hprobe]
  simp [Finding.map]

theorem chains_renamed (rule : Rule) :
    (rule.renamed π).chains = rule.chains.map fun entry => (entry.1, entry.2.renamed π) := by
  induction rule using tree_induction
    (C := fun chain => (chain.renamed π).chains =
      chain.chains.map fun entry => (entry.1, entry.2.renamed π)) with
  | leaf own marks chain ih => exact ih
  | compound kind parts marks chain ihs ih =>
    have hparts : (parts.map (renamed π)).flatMap chains =
        parts.flatMap fun part => part.chains.map fun entry => (entry.1, entry.2.renamed π) := by
      rw [List.flatMap_map]
      exact List.flatMap_congr ihs
    simp [renamed, renamedEach_eq_map, chains, hparts, ih, List.map_flatMap]
  | counted id inner ih => exact ih
  | absent => rfl
  | attached id follow ih => simp [Chain.renamed, Chain.chains, ih]

end Rule

theorem Chain.chains_renamed (chain : Chain) : (chain.renamed π).chains =
    chain.chains.map fun entry => (entry.1, entry.2.renamed π) := by
  cases chain with
  | absent => rfl
  | attached id follow => simp [Chain.renamed, Chain.chains, Rule.chains_renamed]

namespace Rule

variable {rule : Rule} {parts : List Rule} {s t : Snapshot}

theorem brought_renamed (rule : Rule) :
    (rule.renamed π).brought = rule.brought.map fun entry => (entry.1, entry.2.renamed π) := by
  induction rule using deep_induction
    (C := fun chain => (chain.renamed π).brought =
      chain.brought.map fun entry => (entry.1, entry.2.renamed π)) with
  | leaf own marks chain ihs ih =>
    have hown : (own.renamed π).brought =
        own.brought.map fun entry => (entry.1, entry.2.renamed π) := by
      rw [Leaf.brought_eq_entries, Leaf.brought_eq_entries, Leaf.carried_renamed,
        Chain.entries_eq_flatMap, Chain.entries_eq_flatMap, List.flatMap_map, List.map_flatMap]
      refine List.flatMap_congr fun other hmem => ?_
      rw [Chain.chains_renamed, ihs other hmem, List.map_append]
    simp [renamed, brought, hown, ih]
  | compound kind parts marks chain ihs ih =>
    have hparts : (parts.map (renamed π)).flatMap brought =
        parts.flatMap fun part => part.brought.map fun entry => (entry.1, entry.2.renamed π) := by
      rw [List.flatMap_map]
      exact List.flatMap_congr ihs
    simp [renamed, renamedEach_eq_map, brought, hparts, ih, List.map_flatMap]
  | counted id inner ih => exact ih
  | absent => rfl
  | attached id follow ih => exact ih

theorem follow?_renamed (rule : Rule) (id : ChainId) :
    (rule.renamed π).follow? id = (rule.follow? id).map (renamed π) := by
  rw [follow?, follow?, chains_renamed, brought_renamed, ← List.map_append, List.lookup_map_snd]

theorem consequent?_renamed (rule : Rule) (m : Move) (place : Nat) :
    (rule.renamed π).consequent? (m.renamed π) place =
      (rule.consequent? m place).map (renamed π) := by
  have hplace : (m.renamed π).chains[place]? = m.chains[place]? := rfl
  cases hid : m.chains[place]? with
  | none => simp [consequent?, hplace, hid]
  | some id => simp [consequent?, hplace, hid, follow?_renamed]

theorem renames_leaves
    (h : ∀ own ∈ rule.leaves, own.isCustom = true → ∀ s, own.Renames π s (s.renamed π))
    (s : Snapshot) : ∀ own ∈ rule.leaves, own.Renames π s (s.renamed π) := by
  intro own hmem
  cases hown : own.isCustom with
  | true => exact h own hmem hown s
  | false => exact Leaf.renames_of_mirrors hown (.renamed π s)

/-- Players may be renamed, in a snapshot and in the listed moves of a tree at once: evaluated or
streamed, by itself or by the chain of a move, the tree yields the renamed moves, and the same sites
can be reached. Rules from outside take part as far as their own moves are renamed that way. -/
theorem renamed_symmetric (π : Equiv.Perm Player) {rule : Rule}
    (h : ∀ own ∈ rule.leaves, own.isCustom = true → ∀ s, own.Renames π s (s.renamed π))
    (s : Snapshot) :
    (rule.renamed π).eval (s.renamed π) = MoveSet.renamed π <$> rule.eval s ∧
      (rule.renamed π).cursor (s.renamed π) = Cursor.mirrored π (s.renamed π) <$> rule.cursor s ∧
      (∀ target, (rule.renamed π).canMoveTo target (s.renamed π) = rule.canMoveTo target s) ∧
      (rule.renamed π).chains = rule.chains.map (fun entry => (entry.1, entry.2.renamed π)) ∧
      (rule.renamed π).brought = rule.brought.map (fun entry => (entry.1, entry.2.renamed π)) ∧
      ((∀ entry ∈ rule.brought, ∀ own ∈ entry.2.leaves, own.isCustom = true →
          ∀ s, own.Renames π s (s.renamed π)) →
        ∀ m place, (rule.renamed π).evalChain? (m.renamed π) place (s.renamed π) =
          (rule.evalChain? m place s).map (MoveSet.renamed π <$> ·)) := by
  have hroot := renames_leaves h s
  refine ⟨eval_renamed hroot, cursor_renamed hroot, canMoveTo_renamed hroot, chains_renamed rule,
    brought_renamed rule, fun hbrought m place => ?_⟩
  rcases hfollow : rule.consequent? m place with _ | follow
  · simp [evalChain?, consequent?_renamed, hfollow]
  · have hlaw := forall_leaves_of_consequent? hfollow h hbrought
    have hchain := eval_renamed (renames_leaves hlaw s)
    simp [evalChain?, consequent?_renamed, hfollow, hchain]

def selection (targets : List Site) : Custom where
  text := "selection"
  moves s := targets.map (Move.select s.mover)

theorem renames_selection (targets : List Site) (s : Snapshot) :
    (Leaf.custom (selection targets)).Renames π s (s.renamed π) := by
  have hmoves : (selection targets).moves (s.renamed π) =
      ((selection targets).moves s).map (Move.renamed π) := by
    simp [selection, Snapshot.renamed, Move.select, Move.renamed]
  exact ⟨hmoves, (congrArg MoveStream.ofList hmoves).trans (MoveStream.map_ofList _ _).symm⟩

def stepElseSelect : Rule :=
  .ofParts .priority
    [.leaf (.step (some #[[⟨1⟩], [⟨0⟩, ⟨2⟩], [⟨1⟩]])) { decision := true }
        (.attached ⟨0⟩ (.ofLeaf (.listed [{ Move.pass ⟨0⟩ with chains := [⟨1⟩] }] ∅
          [.attached ⟨1⟩ (.ofLeaf (.custom (selection [⟨1⟩])))]))),
      .ofLeaf (.custom (selection [⟨0⟩, ⟨2⟩]))]

def firstTwoSwapped : Equiv.Perm Player := Equiv.swap ⟨0⟩ ⟨1⟩

def faceToFace : Snapshot :=
  { players := 3, board := #[none, some ⟨0⟩, some ⟨1⟩], players_bounds := by decide }

theorem renamed_symmetric_stepElseSelect :
    (∀ own ∈ stepElseSelect.leaves, own.isCustom = true → ∀ s,
        own.Renames firstTwoSwapped s (s.renamed firstTwoSwapped)) ∧
      (∀ entry ∈ stepElseSelect.brought, ∀ own ∈ entry.2.leaves, own.isCustom = true →
        ∀ s, own.Renames firstTwoSwapped s (s.renamed firstTwoSwapped)) ∧
      ((stepElseSelect.renamed firstTwoSwapped).eval (faceToFace.renamed firstTwoSwapped)).value =
        ⟨[{ Move.step ⟨1⟩ ⟨1⟩ ⟨0⟩ with decision := true, chains := [⟨0⟩] }], none⟩ ∧
      ((stepElseSelect.renamed firstTwoSwapped).evalChain?
          (Move.renamed firstTwoSwapped { Move.step ⟨0⟩ ⟨1⟩ ⟨0⟩ with chains := [⟨0⟩] }) 0
          (faceToFace.renamed firstTwoSwapped)).map (·.value) =
        some ⟨[{ Move.pass ⟨1⟩ with chains := [⟨1⟩] }], none⟩ ∧
      ((stepElseSelect.renamed firstTwoSwapped).evalChain?
          (Move.renamed firstTwoSwapped { Move.pass ⟨0⟩ with chains := [⟨1⟩] }) 0
          (faceToFace.renamed firstTwoSwapped)).map (·.value) =
        some ⟨[Move.select ⟨1⟩ ⟨1⟩], none⟩ := by
  have hlaw : ∀ own ∈ stepElseSelect.leaves, own.isCustom = true → ∀ s,
      own.Renames firstTwoSwapped s (s.renamed firstTwoSwapped) := by
    intro own hmem hown s
    simp only [stepElseSelect, ofParts, ofLeaf, leaves, leavesAll, Chain.leaves, List.append_nil,
      List.cons_append, List.nil_append, List.mem_cons, List.not_mem_nil, or_false] at hmem
    rcases hmem with rfl | rfl | rfl
    · cases hown
    · cases hown
    · exact renames_selection _ s
  have hbrought : ∀ entry ∈ stepElseSelect.brought, ∀ own ∈ entry.2.leaves, own.isCustom = true →
      ∀ s, own.Renames firstTwoSwapped s (s.renamed firstTwoSwapped) := by
    intro entry hentry own hmem _ s
    obtain rfl : entry = (⟨1⟩, .ofLeaf (.custom (selection [⟨1⟩]))) := List.mem_singleton.mp hentry
    obtain rfl : own = .custom (selection [⟨1⟩]) := List.mem_singleton.mp hmem
    exact renames_selection _ s
  obtain ⟨heval, -, -, -, -, hchain⟩ := renamed_symmetric firstTwoSwapped hlaw faceToFace
  rw [heval, hchain hbrought, hchain hbrought]
  exact ⟨hlaw, hbrought, by decide +kernel, by decide +kernel, by decide +kernel⟩

end Rule

end LegalMoves
