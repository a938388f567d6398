import LegalMoves.Rule.Moves

set_option autoImplicit false

/-!
Where the moves of a tree come from. A tree is read as the list of its branches, each the way from a
leaf up to the root. A branch delivers its leaf's moves if every priority on the way prefers the part
through which the way goes, and every rule on the way adds its chain and its decision mark to them.
-/
namespace LegalMoves

/-- A compound on the way from a leaf up to the root, with the part that the way comes from and the
parts before that one. -/
structure Fork where
  kind : Compound
  before : List Rule
  part : Rule
  marks : Marks
  chain : Chain

/-- A priority is passed only through its first part with moves, a union through every part. -/
def Fork.Open (s : Snapshot) (f : Fork) : Prop :=
  f.kind = .priority → (∀ rule ∈ f.before, rule.moves s = []) ∧ f.part.moves s ≠ []

instance (s : Snapshot) (f : Fork) : Decidable (f.Open s) := inferInstanceAs (Decidable (_ → _))

/-- A leaf of a tree, with the compounds above it, the nearest first. -/
structure Branch where
  own : Leaf
  marks : Marks
  chain : Chain
  above : List Fork

namespace Branch

def Active (s : Snapshot) (b : Branch) : Prop := ∀ f ∈ b.above, f.Open s

instance (s : Snapshot) (b : Branch) : Decidable (b.Active s) :=
  inferInstanceAs (Decidable (∀ f ∈ b.above, f.Open s))

def chains (b : Branch) : List ChainId := (b.chain :: b.above.map (·.chain)).filterMap Chain.id?

def decides (b : Branch) : Bool := (b.marks :: b.above.map (·.marks)).any (·.decision)

/-- A move of the leaf as it arrives at the root. -/
def deliver (b : Branch) (m : Move) : Move :=
  { m with chains := m.chains ++ b.chains, decision := m.decision || b.decides }

def extend (f : Fork) (b : Branch) : Branch := { b with above := b.above ++ [f] }

def gather (s : Snapshot) (bs : List Branch) : List Move :=
  (bs.filter (·.Active s)).flatMap fun b => (b.own.moves s).map b.deliver

end Branch

mutual

def Rule.branches : Rule → List Branch
  | .leaf own marks chain => [⟨own, marks, chain, []⟩]
  | .compound kind parts marks chain => Rule.branchesFrom kind marks chain [] parts
  | .counted _ inner => inner.branches

def Rule.branchesFrom (kind : Compound) (marks : Marks) (chain : Chain) (before : List Rule) :
    List Rule → List Branch
  | [] => []
  | part :: parts =>
    part.branches.map (Branch.extend ⟨kind, before, part, marks, chain⟩) ++
      Rule.branchesFrom kind marks chain (before ++ [part]) parts

end

theorem Chain.filterMap_id?_singleton (chain : Chain) :
    [chain].filterMap Chain.id? = chain.id?.toList := by
  cases chain with
  | absent => rfl
  | attached id rule => rfl

namespace Branch

theorem deliver_extend (f : Fork) (b : Branch) (m : Move) :
    (b.extend f).deliver m = Move.stamp f.marks f.chain (b.deliver m) := by
  have hchains : (b.extend f).chains = b.chains ++ f.chain.id?.toList := by
    simp only [extend, chains, List.map_append, List.map_cons, List.map_nil]
    rw [← List.cons_append, List.filterMap_append, Chain.filterMap_id?_singleton]
  have hdecides : (b.extend f).decides = (b.decides || f.marks.decision) := by
    simp [extend, decides, Bool.or_assoc]
  simp [deliver, Move.stamp, hchains, hdecides, Bool.or_assoc]

theorem active_extend_iff {s : Snapshot} {f : Fork} {b : Branch} :
    (b.extend f).Active s ↔ b.Active s ∧ f.Open s := by
  simp only [Active, extend, List.mem_append, List.mem_singleton]
  constructor
  · intro h
    exact ⟨fun g hg => h g (Or.inl hg), h f (Or.inr rfl)⟩
  · rintro ⟨hb, hf⟩ g (hg | rfl)
    · exact hb g hg
    · exact hf

@[simp] theorem gather_nil (s : Snapshot) : gather s [] = [] := rfl

@[simp] theorem gather_append (s : Snapshot) (bs cs : List Branch) :
    gather s (bs ++ cs) = gather s bs ++ gather s cs := by
  simp [gather]

theorem gather_extend_of_open {s : Snapshot} {f : Fork} (h : f.Open s) (bs : List Branch) :
    gather s (bs.map (extend f)) = (gather s bs).map (Move.stamp f.marks f.chain) := by
  have hactive : ∀ b : Branch, (b.extend f).Active s ↔ b.Active s := by
    intro b
    rw [active_extend_iff]
    exact and_iff_left h
  have hown : ∀ b : Branch, (b.extend f).own = b.own := fun b => rfl
  have hdeliver : ∀ b : Branch,
      (b.extend f).deliver = Move.stamp f.marks f.chain ∘ b.deliver := by
    intro b
    funext m
    exact deliver_extend f b m
  simp [gather, List.filter_map, List.flatMap_map, List.map_flatMap, Function.comp_def, hactive,
    hown, hdeliver]

theorem gather_extend_of_not_open {s : Snapshot} {f : Fork} (h : ¬ f.Open s) (bs : List Branch) :
    gather s (bs.map (extend f)) = [] := by
  have hactive : ∀ b : Branch, ¬ (b.extend f).Active s := fun b hb => h (active_extend_iff.mp hb).2
  simp [gather, List.filter_map, Function.comp_def, hactive]

end Branch

namespace Rule

open Branch

variable {s : Snapshot} {parts : List Rule}

theorem gather_branchesFrom_union (h : ∀ part ∈ parts, part.moves s = gather s part.branches)
    (marks : Marks) (chain : Chain) (before : List Rule) :
    gather s (branchesFrom .union marks chain before parts) =
      (parts.flatMap (·.moves s)).map (Move.stamp marks chain) := by
  induction parts generalizing before with
  | nil => rfl
  | cons part parts ih =>
    have hopen : (Fork.mk .union before part marks chain).Open s := by
      intro hkind
      cases hkind
    have hpart : part.moves s = gather s part.branches := h part (by simp)
    have hothers := ih (fun other hmem => h other (by simp [hmem])) (before ++ [part])
    rw [branchesFrom, gather_append, gather_extend_of_open hopen, hothers, ← hpart]
    simp

theorem gather_branchesFrom_of_moves (marks : Marks) (chain : Chain) {before : List Rule}
    (hbefore : ∃ rule ∈ before, rule.moves s ≠ []) (parts : List Rule) :
    gather s (branchesFrom .priority marks chain before parts) = [] := by
  induction parts generalizing before with
  | nil => rfl
  | cons part parts ih =>
    obtain ⟨rule, hmem, hne⟩ := hbefore
    have hclosed : ¬ (Fork.mk .priority before part marks chain).Open s := by
      intro hopen
      exact hne ((hopen rfl).1 rule hmem)
    have hothers := ih ⟨rule, List.mem_append_left [part] hmem, hne⟩
    rw [branchesFrom, gather_append, gather_extend_of_not_open hclosed, hothers]
    rfl

/-- The parts before the ones at hand have no moves. The first part that has some is open, and
nothing passes behind it. -/
theorem gather_branchesFrom_priority (h : ∀ part ∈ parts, part.moves s = gather s part.branches)
    (marks : Marks) (chain : Chain) {before : List Rule}
    (hbefore : ∀ rule ∈ before, rule.moves s = []) :
    gather s (branchesFrom .priority marks chain before parts) =
      (((parts.map (·.moves s)).find? (!·.isEmpty)).getD []).map (Move.stamp marks chain) := by
  induction parts generalizing before with
  | nil => rfl
  | cons part parts ih =>
    have hpart : part.moves s = gather s part.branches := h part (by simp)
    by_cases hm : part.moves s = []
    · have hclosed : ¬ (Fork.mk .priority before part marks chain).Open s := by
        intro hopen
        exact (hopen rfl).2 hm
      have hlater : ∀ rule ∈ before ++ [part], rule.moves s = [] := by
        intro rule hmem
        rcases List.mem_append.mp hmem with hold | hlast
        · exact hbefore rule hold
        · rw [List.mem_singleton.mp hlast, hm]
      have hothers := ih (fun other hmem => h other (by simp [hmem])) hlater
      rw [branchesFrom, gather_append, gather_extend_of_not_open hclosed, hothers]
      simp [hm]
    · have hopen : (Fork.mk .priority before part marks chain).Open s := fun _ => ⟨hbefore, hm⟩
      have hsome : ∃ rule ∈ before ++ [part], rule.moves s ≠ [] := ⟨part, by simp, hm⟩
      have hothers := gather_branchesFrom_of_moves marks chain hsome parts
      have hfirst : (part.moves s).isEmpty = false := by simpa using hm
      rw [branchesFrom, gather_append, gather_extend_of_open hopen, hothers, ← hpart]
      simp [hfirst]

theorem moves_eq_gather (rule : Rule) (s : Snapshot) :
    rule.moves s = gather s rule.branches := by
  induction rule using part_induction with
  | leaf own marks chain =>
    have hactive : (Branch.mk own marks chain []).Active s := by simp [Active]
    have hdeliver : (Branch.mk own marks chain []).deliver = Move.stamp marks chain := by
      funext m
      simp [deliver, Move.stamp, Branch.chains, decides, Chain.filterMap_id?_singleton]
    simp [branches, gather, hactive, hdeliver]
  | compound kind parts marks chain ih =>
    cases kind with
    | union => rw [moves_union, branches, gather_branchesFrom_union ih]
    | priority => rw [moves_priority, branches, gather_branchesFrom_priority ih _ _ (by simp)]
  | counted id inner ih => rw [moves_counted, branches, ih]

/-- A tree evaluates to the moves of its active leaves from left to right. Each carries the chains on
its way up, the innermost first, and is a decision if it was one or a rule on the way is marked. -/
theorem eval_eq_active_leaves (rule : Rule) (s : Snapshot) :
    (rule.eval s).value =
      { moves := (rule.branches.filter (·.Active s)).flatMap fun b =>
          (b.own.moves s).map fun m =>
            { m with
              chains := m.chains ++ (b.chain :: b.above.map (·.chain)).filterMap Chain.id?
              decision := m.decision || (b.marks :: b.above.map (·.marks)).any (·.decision) }
        chain := rule.chain.id? } := by
  rw [value_eval, moves_eq_gather]
  rfl

end Rule
end LegalMoves
