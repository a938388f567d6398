import LegalMoves.Snapshot.Basic
import LegalMoves.MoveStream

set_option autoImplicit false

/-!
Rule trees. A leaf yields moves of its own, a compound combines the moves of its parts, and a
counted rule is another rule whose use is recorded. Every rule but a counted one has marks and room
for one chain, the rule for the follow-ups of its moves; a counted rule shares those of the rule in
it.
-/
namespace LegalMoves

structure Marks where
  /-- The moves are an explicit choice of a player. -/
  decision : Bool := false
  /-- Follow-ups wait until the moves of all players are known. -/
  deferred : Bool := false
  deriving DecidableEq, Inhabited, Repr

def Marks.merge (a b : Marks) : Marks := ⟨a.decision || b.decision, a.deferred || b.deferred⟩

inductive Compound where
  | union
  | priority
  deriving DecidableEq, Inhabited, Repr

mutual

inductive Rule where
  | leaf (own : Leaf) (marks : Marks) (chain : Chain)
  | compound (kind : Compound) (parts : List Rule) (marks : Marks) (chain : Chain)
  | counted (id : String) (inner : Rule)

/-- The chain of a rule, which has an identity of its own. -/
inductive Chain where
  | absent
  | attached (id : ChainId) (rule : Rule)

inductive Leaf where
  | pass
  /-- The mover puts a piece on an empty site. -/
  | place
  /-- A piece of the mover goes to an empty neighbouring site. The table of neighbours is taken from
  the first game that the rule is prepared for. -/
  | step (table : Option (Array (List Site)))
  /-- Moves that are known in advance, such as those of another rule in some snapshot. They keep the
  chains that they have from there. -/
  | listed (moves : List Move) (declared : Capabilities) (carried : List Chain)
  | custom (rule : Custom)

/-- A kind of rule that is given from outside: its text and its moves before they are stamped. A
rule without a stream of its own is evaluated as soon as its moves are asked for. A rule that wraps
others is one too: its moves and its stream are then made from theirs, and its moves carry chains of
theirs. -/
structure Custom where
  text : String
  moves : Snapshot → List Move
  stream? : Option (Snapshot → MoveStream) := none
  carried : List Chain := []

end

/-- Listed moves that have no chains from elsewhere. -/
def Leaf.fixed (moves : List Move) (declared : Capabilities) : Leaf := .listed moves declared []

def Leaf.isCustom : Leaf → Bool
  | .custom _ => true
  | .pass | .place | .step _ | .listed _ _ _ => false

/-- The chains that the moves of a leaf have before any rule stamps them. -/
def Leaf.carried : Leaf → List Chain
  | .listed _ _ carried => carried
  | .custom rule => rule.carried
  | .pass | .place | .step _ => []

def Chain.id? : Chain → Option ChainId
  | .absent => none
  | .attached id _ => some id

namespace Rule

/-- Induction over a rule, its parts, the rules in its chains and those in the chains that its moves
carry. -/
theorem deep_induction {motive : Rule → Prop} {C : Chain → Prop}
    (leaf : ∀ own marks chain, (∀ other ∈ own.carried, C other) → C chain →
      motive (.leaf own marks chain))
    (compound : ∀ kind parts marks chain, (∀ part ∈ parts, motive part) → C chain →
      motive (.compound kind parts marks chain))
    (counted : ∀ id inner, motive inner → motive (.counted id inner)) (absent : C .absent)
    (attached : ∀ id rule, motive rule → C (.attached id rule)) (rule : Rule) : motive rule := by
  refine @Rule.rec motive C (fun own => ∀ other ∈ own.carried, C other)
    (fun custom => ∀ other ∈ custom.carried, C other) (fun parts => ∀ part ∈ parts, motive part)
    (fun chains => ∀ chain ∈ chains, C chain) leaf compound counted absent attached
    ?pass ?place ?step ?listed ?custom ?outside ?noPart ?part ?noChain ?chain rule
  case pass | place | step => simp [Leaf.carried]
  case listed => exact fun _ _ _ ih => ih
  case custom => exact fun _ ih => ih
  case outside => exact fun _ _ _ _ ih => ih
  case noPart | noChain => simp
  case part | chain => exact fun _ _ ih ihs => List.forall_mem_cons.mpr ⟨ih, ihs⟩

theorem tree_induction {motive : Rule → Prop} {C : Chain → Prop}
    (leaf : ∀ own marks chain, C chain → motive (.leaf own marks chain))
    (compound : ∀ kind parts marks chain, (∀ part ∈ parts, motive part) → C chain →
      motive (.compound kind parts marks chain))
    (counted : ∀ id inner, motive inner → motive (.counted id inner)) (absent : C .absent)
    (attached : ∀ id rule, motive rule → C (.attached id rule)) (rule : Rule) : motive rule :=
  deep_induction (fun own marks chain _ => leaf own marks chain) compound counted absent attached
    rule

/-- Induction over a rule and its parts. Chains are left alone. -/
theorem part_induction {motive : Rule → Prop}
    (leaf : ∀ own marks chain, motive (.leaf own marks chain))
    (compound : ∀ kind parts marks chain, (∀ part ∈ parts, motive part) →
      motive (.compound kind parts marks chain))
    (counted : ∀ id inner, motive inner → motive (.counted id inner)) (rule : Rule) :
    motive rule :=
  tree_induction (C := fun _ => True) (fun own marks chain _ => leaf own marks chain)
    (fun kind parts marks chain ih _ => compound kind parts marks chain ih) counted trivial
    (fun _ _ _ => trivial) rule

def ofLeaf (own : Leaf) : Rule := .leaf own {} .absent

def ofParts (kind : Compound) (parts : List Rule) : Rule := .compound kind parts {} .absent

def parts : Rule → List Rule
  | .compound _ parts _ _ => parts
  | .leaf _ _ _ | .counted _ _ => []

def withPart (rule part : Rule) : Rule :=
  match rule with
  | .compound kind parts marks chain => .compound kind (parts ++ [part]) marks chain
  | other => other

def marks : Rule → Marks
  | .leaf _ marks _ | .compound _ _ marks _ => marks
  | .counted _ inner => inner.marks

def chain : Rule → Chain
  | .leaf _ _ chain | .compound _ _ _ chain => chain
  | .counted _ inner => inner.chain

def mark (extra : Marks) : Rule → Rule
  | .leaf own marks chain => .leaf own (marks.merge extra) chain
  | .compound kind parts marks chain => .compound kind parts (marks.merge extra) chain
  | .counted id inner => .counted id (inner.mark extra)

def withChain (chain : Chain) : Rule → Rule
  | .leaf own marks _ => .leaf own marks chain
  | .compound kind parts marks _ => .compound kind parts marks chain
  | .counted id inner => .counted id (inner.withChain chain)

def attach (rule : Rule) (id : ChainId) (follow : Rule) : Except Error Rule :=
  match rule.chain with
  | .absent => .ok (rule.withChain (.attached id follow))
  | .attached _ _ => .error .chainAlreadyAttached

@[simp] theorem chain_withChain (chain : Chain) (rule : Rule) :
    (rule.withChain chain).chain = chain := by
  fun_induction withChain chain rule with
  | case1 => rfl
  | case2 => rfl
  | case3 _ _ ih => simpa [Rule.chain] using ih

@[simp] theorem marks_withChain (chain : Chain) (rule : Rule) :
    (rule.withChain chain).marks = rule.marks := by
  fun_induction withChain chain rule with
  | case1 => rfl
  | case2 => rfl
  | case3 _ _ ih => simpa [Rule.marks] using ih

@[simp] theorem marks_mark (extra : Marks) (rule : Rule) :
    (rule.mark extra).marks = rule.marks.merge extra := by
  fun_induction mark extra rule with
  | case1 => rfl
  | case2 => rfl
  | case3 _ _ ih => simpa [Rule.marks] using ih

@[simp] theorem chain_mark (extra : Marks) (rule : Rule) :
    (rule.mark extra).chain = rule.chain := by
  fun_induction mark extra rule with
  | case1 => rfl
  | case2 => rfl
  | case3 _ _ ih => simpa [Rule.chain] using ih

theorem attach_eq_error_iff {id : ChainId} {follow rule : Rule} :
    rule.attach id follow = .error .chainAlreadyAttached ↔ rule.chain ≠ .absent := by
  unfold attach
  split <;> simp_all

end Rule
end LegalMoves
