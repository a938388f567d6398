import LegalMoves.Rule.Basic

set_option autoImplicit false

namespace LegalMoves

def Leaf.text : Leaf → String
  | .pass => "pass"
  | .place => "place"
  | .step _ => "step"
  | .listed ms _ _ => String.intercalate ", " (ms.map Move.text)
  | .custom rule => rule.text

def Compound.name : Compound → String
  | .union => "or"
  | .priority => "priority"

mutual

def Rule.text : Rule → String
  | .leaf own _ chain => own.text ++ chain.text
  | .compound kind parts _ chain =>
    kind.name ++ "(" ++ String.intercalate "; " (Rule.texts parts) ++ ")" ++ chain.text
  | .counted _ inner => "spy(" ++ inner.text ++ ")"

def Rule.texts : List Rule → List String
  | [] => []
  | rule :: rules => rule.text :: Rule.texts rules

def Chain.text : Chain → String
  | .absent => ""
  | .attached _ rule => "[then: " ++ rule.text ++ "]"

end

@[simp] theorem Rule.texts_eq_map (rules : List Rule) : texts rules = rules.map text := by
  induction rules with
  | nil => rfl
  | cons rule rules ih => simp [texts, ih]

end LegalMoves
