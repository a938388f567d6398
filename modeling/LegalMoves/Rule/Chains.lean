import LegalMoves.Rule.Moves
import LegalMoves.Rule.Text

set_option autoImplicit false

/-!
The chains of a rule tree: those of its rules, of the rules in its chains, and so on, and those that
its listed moves bring along from elsewhere. A move names the chains that it triggers, and they are
found in the tree that it comes from.
-/
namespace LegalMoves

mutual

/-- The rules of all chains of a tree with their identities. -/
def Rule.chains : Rule → List (ChainId × Rule)
  | .leaf _ _ chain => chain.chains
  | .compound _ parts _ chain => Rule.chainsAll parts ++ chain.chains
  | .counted _ inner => inner.chains

def Rule.chainsAll : List Rule → List (ChainId × Rule)
  | [] => []
  | rule :: rules => rule.chains ++ Rule.chainsAll rules

def Chain.chains : Chain → List (ChainId × Rule)
  | .absent => []
  | .attached id rule => (id, rule) :: rule.chains

end

mutual

/-- The rules of all chains that come with the moves of the leaves of a tree, of the leaves in its
chains, and so on. No rule of the tree holds them, so they are not prepared with it. -/
def Rule.brought : Rule → List (ChainId × Rule)
  | .leaf own _ chain => own.brought ++ chain.brought
  | .compound _ parts _ chain => Rule.broughtAll parts ++ chain.brought
  | .counted _ inner => inner.brought

def Rule.broughtAll : List Rule → List (ChainId × Rule)
  | [] => []
  | rule :: rules => rule.brought ++ Rule.broughtAll rules

def Chain.brought : Chain → List (ChainId × Rule)
  | .absent => []
  | .attached _ rule => rule.brought

def Chain.entries : List Chain → List (ChainId × Rule)
  | [] => []
  | chain :: chains => chain.chains ++ chain.brought ++ Chain.entries chains

def Leaf.brought : Leaf → List (ChainId × Rule)
  | .listed _ _ carried | .custom ⟨_, _, _, carried⟩ => Chain.entries carried
  | .pass | .place | .step _ => []

end

mutual

/-- The leaves of a tree, those of its chains included. -/
def Rule.leaves : Rule → List Leaf
  | .leaf own _ chain => own :: chain.leaves
  | .compound _ parts _ chain => Rule.leavesAll parts ++ chain.leaves
  | .counted _ inner => inner.leaves

def Rule.leavesAll : List Rule → List Leaf
  | [] => []
  | rule :: rules => rule.leaves ++ Rule.leavesAll rules

def Chain.leaves : Chain → List Leaf
  | .absent => []
  | .attached _ rule => rule.leaves

end

mutual

def Rule.counters : Rule → List String
  | .leaf _ _ chain => chain.counters
  | .compound _ parts _ chain => Rule.countersAll parts ++ chain.counters
  | .counted id inner => id :: inner.counters

def Rule.countersAll : List Rule → List String
  | [] => []
  | rule :: rules => rule.counters ++ Rule.countersAll rules

def Chain.counters : Chain → List String
  | .absent => []
  | .attached _ rule => rule.counters

end

namespace Chain

theorem entries_eq_flatMap (chains : List Chain) :
    entries chains = chains.flatMap fun chain => chain.chains ++ chain.brought := by
  induction chains with
  | nil => rfl
  | cons chain chains ih => simp [entries, ih]

end Chain

theorem Leaf.brought_eq_entries (own : Leaf) : own.brought = Chain.entries own.carried := by
  cases own with
  | custom rule => cases rule; rfl
  | _ => rfl

namespace Rule

/-- The rule of a chain that a move can trigger. A chain that the tree holds comes first, as it is
prepared with the tree. -/
def follow? (root : Rule) (id : ChainId) : Option Rule := (root.chains ++ root.brought).lookup id

def chainText (root : Rule) (id : ChainId) : String :=
  match root.follow? id with
  | some rule => (Chain.attached id rule).text
  | none => ""

def consequent? (root : Rule) (m : Move) (place : Nat) : Option Rule := do
  let id ← m.chains[place]?
  root.follow? id

def evalChain? (root : Rule) (m : Move) (place : Nat) (s : Snapshot) : Option (Traced MoveSet) := do
  let rule ← root.consequent? m place
  pure (rule.eval s)

@[simp] theorem chainsAll_eq_flatMap (rules : List Rule) :
    chainsAll rules = rules.flatMap chains := by
  induction rules with
  | nil => rfl
  | cons rule rules ih => simp [chainsAll, ih]

@[simp] theorem broughtAll_eq_flatMap (rules : List Rule) :
    broughtAll rules = rules.flatMap brought := by
  induction rules with
  | nil => rfl
  | cons rule rules ih => simp [broughtAll, ih]

@[simp] theorem leavesAll_eq_flatMap (rules : List Rule) :
    leavesAll rules = rules.flatMap leaves := by
  induction rules with
  | nil => rfl
  | cons rule rules ih => simp [leavesAll, ih]

@[simp] theorem countersAll_eq_flatMap (rules : List Rule) :
    countersAll rules = rules.flatMap counters := by
  induction rules with
  | nil => rfl
  | cons rule rules ih => simp [countersAll, ih]

end Rule
end LegalMoves
