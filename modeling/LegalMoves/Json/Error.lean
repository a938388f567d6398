import LegalMoves.Decimal.Layout
import LegalMoves.Text.Quoted

set_option autoImplicit false

namespace LegalMoves.Json

/-- A number as it is read: an integer that fits 64 bits, signed or not, or else a float. -/
inductive Number where
  | integer (value : Int)
  | float (value : Float)

inductive Found where
  | null
  | boolean (value : Bool)
  | number (value : Number)
  | string (value : String)
  | list
  | object

def Found.text : Found → String
  | null => "null"
  | boolean value => "boolean \x60" ++ toString value ++ "\x60"
  | number (.integer value) => "integer \x60" ++ toString value ++ "\x60"
  | number (.float value) => "floating point \x60" ++ Decimal.text value ++ "\x60"
  | string value => "string " ++ Text.quoted value
  | list => "sequence"
  | object => "map"

inductive Mismatch where
  | missingField (name : String)
  | duplicateField (name : String)
  | unknownVariant (word : String) (known : List String)
  | invalidLength (length : Nat) (wanted : String)
  | invalidType (found : Found) (wanted : String)
  | invalidValue (value : Int) (wanted : String)

def backquoted (word : String) : String := "\x60" ++ word ++ "\x60"

def alternatives : List String → String
  | [a, b] => backquoted a ++ " or " ++ backquoted b
  | words => "one of " ++ String.intercalate ", " (words.map backquoted)

def Mismatch.message : Mismatch → String
  | missingField name => "missing field " ++ backquoted name
  | duplicateField name => "duplicate field " ++ backquoted name
  | unknownVariant word known =>
      "unknown variant " ++ backquoted word ++ ", expected " ++ alternatives known
  | invalidLength length wanted => s!"invalid length {length}, expected {wanted}"
  | invalidType found wanted => "invalid type: " ++ found.text ++ ", expected " ++ wanted
  | invalidValue value wanted => s!"invalid value: integer \x60{value}\x60, expected {wanted}"

inductive Error where
  | malformed
  | truncated
  | mismatch (cause : Mismatch)

abbrev Scanned (α : Type) := α × List Char

abbrev Reader (α : Type) := List Char → Except Error (Scanned α)

end LegalMoves.Json
