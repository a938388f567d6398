import LegalMoves.Game.Basic
import LegalMoves.Rule.Basic

set_option autoImplicit false

namespace LegalMoves

def Leaf.capabilities : Leaf → Capabilities
  | .step _ => .fromPositions
  | .listed _ declared _ => declared
  | .pass | .place | .custom _ => ∅

/-- Takes the table of neighbours from a game; a table that is there already is kept. -/
def Leaf.prepare (g : Game) : Leaf → Leaf
  | .step table => .step (table.or (some g.table))
  | own => own

def Leaf.isPrepared : Leaf → Bool
  | .step table => table.isSome
  | _ => true

mutual

def Rule.capabilities : Rule → Capabilities
  | .leaf own _ chain => own.capabilities ∪ chain.capabilities
  | .compound _ parts _ chain => Rule.capabilitiesAll parts ∪ chain.capabilities
  | .counted _ inner => inner.capabilities

def Rule.capabilitiesAll : List Rule → Capabilities
  | [] => ∅
  | rule :: rules => rule.capabilities ∪ Rule.capabilitiesAll rules

def Chain.capabilities : Chain → Capabilities
  | .absent => ∅
  | .attached _ rule => rule.capabilities

end

/-- What a rule asks for without its chain. -/
def Rule.ownCapabilities : Rule → Capabilities
  | .leaf own _ _ => own.capabilities
  | .compound _ parts _ _ => Rule.capabilitiesAll parts
  | .counted _ inner => inner.ownCapabilities

mutual

/-- Whether the moves of a rule are taken to be the same in every snapshot. A leaf that reads the
snapshot passes for static if its chain does; fixed moves and compounds of static parts are static
unless their chain is not. -/
def Rule.isStatic : Rule → Bool
  | .leaf (.listed _ _ _) _ chain => chain.isStatic true
  | .leaf _ _ chain => chain.isStatic false
  | .compound _ parts _ chain => Rule.allStatic parts && chain.isStatic true
  | .counted _ inner => inner.isStatic

def Rule.allStatic : List Rule → Bool
  | [] => true
  | rule :: rules => rule.isStatic && Rule.allStatic rules

/-- Whether a chain is static; `fallback` is the answer if there is none. -/
def Chain.isStatic : Chain → (fallback : Bool) → Bool
  | .absent, fallback => fallback
  | .attached _ rule, _ => rule.isStatic

end

/-- Whether a rule only constrains the moves of others. No kind of rule here does. -/
def Rule.isConstraint (_ : Rule) : Bool := false

mutual

/-- Prepares a rule, its parts and then its chain for a game. -/
def Rule.prepare (g : Game) : Rule → Traced Rule
  | .leaf own marks chain => do
    let chain ← chain.prepare g
    pure (.leaf (own.prepare g) marks chain)
  | .compound kind parts marks chain => do
    let parts ← Rule.prepareAll g parts
    let chain ← chain.prepare g
    pure (.compound kind parts marks chain)
  | .counted id inner => do
    Traced.note (.prepared id)
    let inner ← inner.prepare g
    pure (.counted id inner)

def Rule.prepareAll (g : Game) : List Rule → Traced (List Rule)
  | [] => pure []
  | rule :: rules => do
    let rule ← rule.prepare g
    let rules ← Rule.prepareAll g rules
    pure (rule :: rules)

def Chain.prepare (g : Game) : Chain → Traced Chain
  | .absent => pure .absent
  | .attached id rule => do
    let rule ← rule.prepare g
    pure (.attached id rule)

end

def Rule.prepared (g : Game) (rule : Rule) : Rule := (rule.prepare g).value

def Chain.prepared (g : Game) (chain : Chain) : Chain := (chain.prepare g).value

namespace Chain

@[simp] theorem prepared_absent (g : Game) : prepared g .absent = .absent := rfl

@[simp] theorem prepared_attached (g : Game) (id : ChainId) (rule : Rule) :
    prepared g (.attached id rule) = .attached id (rule.prepared g) := rfl

@[simp] theorem id?_prepared (g : Game) (chain : Chain) : (chain.prepared g).id? = chain.id? := by
  cases chain with
  | absent => rfl
  | attached id rule => rfl

end Chain

namespace Rule

theorem capabilities_eq (rule : Rule) :
    rule.capabilities = rule.ownCapabilities ∪ rule.chain.capabilities := by
  fun_induction ownCapabilities rule with
  | case1 => rfl
  | case2 => rfl
  | case3 _ _ ih => simpa [Rule.capabilities, Rule.chain] using ih

@[simp] theorem allStatic_eq_all (rules : List Rule) : allStatic rules = rules.all isStatic := by
  induction rules with
  | nil => rfl
  | cons rule rules ih => simp [allStatic, ih]

@[simp] theorem value_prepareAll (g : Game) (rules : List Rule) :
    (prepareAll g rules).value = rules.map (prepared g) := by
  induction rules with
  | nil => rfl
  | cons rule rules ih => simp [prepareAll, prepared, ih]

@[simp] theorem prepared_leaf (g : Game) (own : Leaf) (marks : Marks) (chain : Chain) :
    prepared g (.leaf own marks chain) = .leaf (own.prepare g) marks (chain.prepared g) := rfl

@[simp] theorem prepared_compound (g : Game) (kind : Compound) (parts : List Rule) (marks : Marks)
    (chain : Chain) :
    prepared g (.compound kind parts marks chain) =
      .compound kind (parts.map (prepared g)) marks (chain.prepared g) := by
  rw [← value_prepareAll]; rfl

@[simp] theorem prepared_counted (g : Game) (id : String) (inner : Rule) :
    prepared g (.counted id inner) = .counted id (inner.prepared g) := rfl

@[simp] theorem chain_prepared (g : Game) (rule : Rule) :
    (rule.prepared g).chain = rule.chain.prepared g := by
  fun_induction ownCapabilities rule with
  | case1 own marks chain => rfl
  | case2 kind parts marks chain => rfl
  | case3 id inner ih => simpa [Rule.chain] using ih

end Rule

theorem Leaf.prepare_prepare (g h : Game) (own : Leaf) :
    (own.prepare g).prepare h = own.prepare g := by
  cases own with
  | step table => cases table <;> rfl
  | _ => rfl

end LegalMoves
