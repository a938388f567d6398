import LegalMoves.Rule.Basic

set_option autoImplicit false

namespace LegalMoves

inductive Plan where
  | leaf (own : Leaf) (chains : List Plan) (marks : Marks)
  | compound (kind : Compound) (parts : List Plan) (chains : List Plan) (marks : Marks)
  | counted (id : String) (inner : Plan) (chains : List Plan) (marks : Marks)

/-- A step of building: it takes the number for the next chain and leaves a later one. -/
abbrev Building (α : Type) := StateT Nat (Except Error) α

namespace Rule

def attachNext (rule follow : Rule) : Building Rule := do
  let number ← get
  set (number + 1)
  rule.attach ⟨number⟩ follow

end Rule

namespace Plan

mutual

/-- Builds the parts of a rule in order, then each of its chains, which is attached before the next
one is built. -/
def build : Plan → Building Rule
  | leaf own chains marks => attachAll chains (.leaf own marks .absent)
  | compound kind parts chains marks => do
    let parts ← buildAll parts
    attachAll chains (.compound kind parts marks .absent)
  | counted id inner chains marks => do
    let inner ← inner.build
    attachAll chains ((Rule.counted id inner).mark marks)

def buildAll : List Plan → Building (List Rule)
  | [] => pure []
  | plan :: plans => do
    let rule ← plan.build
    let rules ← buildAll plans
    pure (rule :: rules)

def attachAll : List Plan → Rule → Building Rule
  | [], rule => pure rule
  | plan :: plans, rule => do
    let follow ← plan.build
    let rule ← rule.attachNext follow
    attachAll plans rule

end

end Plan
end LegalMoves
