set_option autoImplicit false

namespace LegalMoves

inductive Error where
  | indexOutOfRange (index count : Nat)
  | cursorExhausted
  | chainAlreadyAttached
  deriving DecidableEq, Repr

def Error.message : Error → String
  | .indexOutOfRange index count => s!"move index {index} out of range (count is {count})"
  | .cursorExhausted => "move cursor is exhausted"
  | .chainAlreadyAttached => "a consequential chain is already attached to this generator"

end LegalMoves
