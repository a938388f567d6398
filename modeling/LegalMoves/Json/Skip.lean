import LegalMoves.Json.Number

set_option autoImplicit false

/-!
Passing over a JSON value that nobody wants. Only its form is checked: numbers may be too large and
halves of surrogate pairs may stand alone. The open brackets are kept on a list, so a value may be
nested to any depth.
-/
namespace LegalMoves.Json

inductive Bracket where
  | list
  | object
  deriving DecidableEq, Repr

def Bracket.closing : Bracket → Char
  | list => ']'
  | object => '\x7d'

def skipKey (cs : List Char) : Except Error (Scanned Unit) := do
  let (_, cs) ← mark '"' cs
  let (_, cs) ← skipString cs
  mark ':' cs

mutual

def skipValue : (fuel : Nat) → List Bracket → List Char → Except Error (List Char)
  | 0, _, _ => .error .truncated
  | fuel + 1, brackets, cs =>
    match skipBlanks cs with
    | [] => .error .truncated
    | 'n' :: cs => do
      let (_, cs) ← literal ['u', 'l', 'l'] cs
      skipOn fuel true brackets cs
    | 't' :: cs => do
      let (_, cs) ← literal ['r', 'u', 'e'] cs
      skipOn fuel true brackets cs
    | 'f' :: cs => do
      let (_, cs) ← literal ['a', 'l', 's', 'e'] cs
      skipOn fuel true brackets cs
    | '"' :: cs => do
      let (_, cs) ← skipString cs
      skipOn fuel true brackets cs
    | '[' :: cs => skipOn fuel false (.list :: brackets) cs
    | '\x7b' :: cs => skipOn fuel false (.object :: brackets) cs
    | c :: cs =>
      if c = '-' ∨ (digit? c).isSome then do
        let (_, cs) ← skipNumber (c :: cs)
        skipOn fuel true brackets cs
      else .error .malformed

/-- Goes on inside the innermost open bracket, behind a value (`behind`) or behind the bracket. -/
def skipOn : (fuel : Nat) → (behind : Bool) → List Bracket → List Char → Except Error (List Char)
  | _, _, [], cs => .ok cs
  | 0, _, _ :: _, _ => .error .truncated
  | fuel + 1, behind, bracket :: brackets, cs =>
    match skipBlanks cs with
    | [] => .error .truncated
    | c :: cs =>
      if c = bracket.closing then skipOn fuel true brackets cs
      else if behind ∧ c ≠ ',' then .error .malformed
      else
        let cs := if behind then cs else c :: cs
        match bracket with
        | .list => skipValue fuel (.list :: brackets) cs
        | .object => do
          let (_, cs) ← skipKey cs
          skipValue fuel (.object :: brackets) cs

end

/-- Passes over one value. The fuel is enough if it is twice the length of the text. -/
def skip (fuel : Nat) (cs : List Char) : Except Error (List Char) := skipValue (fuel + 2) [] cs

end LegalMoves.Json
