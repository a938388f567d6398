set_option autoImplicit false

namespace LegalMoves.Json

def writtenLetter? : Char → Option Char
  | '"' => some '"'
  | '\\' => some '\\'
  | '\x08' => some 'b'
  | '\t' => some 't'
  | '\n' => some 'n'
  | '\x0c' => some 'f'
  | '\r' => some 'r'
  | _ => none

def writtenUnit (c : Char) : List Char :=
  ['\\', 'u', '0', '0', Nat.digitChar (c.toNat / 16), Nat.digitChar (c.toNat % 16)]

def writtenChar (c : Char) : List Char :=
  match writtenLetter? c with
  | some letter => ['\\', letter]
  | none => if c.toNat < 0x20 then writtenUnit c else [c]

def writeString (s : String) : List Char := '"' :: s.toList.flatMap writtenChar ++ ['"']

def writeNat (n : Nat) : List Char := Nat.toDigits 10 n

def writeBool : Bool → List Char
  | true => ['t', 'r', 'u', 'e']
  | false => ['f', 'a', 'l', 's', 'e']

def writeNull : List Char := ['n', 'u', 'l', 'l']

def separated (texts : List (List Char)) : List Char := List.intercalate [','] texts

def writeList (items : List (List Char)) : List Char := '[' :: separated items ++ [']']

def writeMember (key : String) (value : List Char) : List Char := writeString key ++ ':' :: value

def writeObject (members : List (String × List Char)) : List Char :=
  '\x7b' :: separated (members.map fun m => writeMember m.1 m.2) ++ ['\x7d']

end LegalMoves.Json
