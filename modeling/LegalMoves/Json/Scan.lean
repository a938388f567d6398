import LegalMoves.Json.Error

set_option autoImplicit false

namespace LegalMoves.Json

def isBlank (c : Char) : Bool := c == ' ' || c == '\n' || c == '\t' || c == '\r'

def skipBlanks (cs : List Char) : List Char := cs.dropWhile isBlank

def literal : List Char → Reader Unit
  | [], cs => .ok ((), cs)
  | _ :: _, [] => .error .truncated
  | e :: es, c :: cs => if c = e then literal es cs else .error .malformed

def mark (wanted : Char) (cs : List Char) : Except Error (Scanned Unit) :=
  literal [wanted] (skipBlanks cs)

def hexDigit? (c : Char) : Option Nat :=
  if '0' ≤ c ∧ c ≤ '9' then some (c.toNat - 48)
  else if 'a' ≤ c ∧ c ≤ 'f' then some (c.toNat - 87)
  else if 'A' ≤ c ∧ c ≤ 'F' then some (c.toNat - 55)
  else none

/-- The 16-bit unit that the first four characters of a text write in hexadecimal digits. The text
is truncated if fewer than four bytes of it are left. -/
def hexUnit : List Char → Except Error Nat
  | c₁ :: c₂ :: c₃ :: c₄ :: _ =>
    match hexDigit? c₁, hexDigit? c₂, hexDigit? c₃, hexDigit? c₄ with
    | some d₁, some d₂, some d₃, some d₄ => .ok (((d₁ * 16 + d₂) * 16 + d₃) * 16 + d₄)
    | _, _, _, _ => .error .malformed
  | short => .error (if (String.ofList short).utf8ByteSize < 4 then .truncated else .malformed)

def ofEscapeLetter? : Char → Option Char
  | '"' => some '"'
  | '\\' => some '\\'
  | '/' => some '/'
  | 'b' => some '\x08'
  | 'f' => some '\x0c'
  | 'n' => some '\n'
  | 'r' => some '\r'
  | 't' => some '\t'
  | _ => none

def isHighSurrogate (unit : Nat) : Bool := 0xd800 ≤ unit && unit < 0xdc00

def isLowSurrogate (unit : Nat) : Bool := 0xdc00 ≤ unit && unit < 0xe000

structure Escaped where
  char : Char
  width : Nat
  deriving DecidableEq, Repr

def numberedEscape (cs : List Char) : Except Error Escaped := do
  let unit ← hexUnit cs
  if isLowSurrogate unit then .error .malformed
  else if isHighSurrogate unit then
    let (_, cs) ← literal ['\\', 'u'] (cs.drop 4)
    let low ← hexUnit cs
    if isLowSurrogate low then
      .ok ⟨Char.ofNat (0x10000 + (unit - 0xd800) * 0x400 + (low - 0xdc00)), 11⟩
    else .error .malformed
  else .ok ⟨Char.ofNat unit, 5⟩

def escape : List Char → Except Error Escaped
  | [] => .error .truncated
  | c :: cs =>
    if c = 'u' then numberedEscape cs
    else match ofEscapeLetter? c with
      | some d => .ok ⟨d, 1⟩
      | none => .error .malformed

/-- Checks an escape whose character is not wanted: halves of pairs may stand alone. -/
def looseEscape : List Char → Except Error Escaped
  | 'u' :: cs => do
    let _ ← hexUnit cs
    .ok ⟨'u', 5⟩
  | cs => escape cs

/-- Reads a string from behind its opening quote. The first `passed` characters belong to an escape
that has been read; `text` is what has been read, backwards. -/
def stringBody (readEscape : List Char → Except Error Escaped) :
    (passed : Nat) → (text : List Char) → Reader (List Char)
  | _, _, [] => .error .truncated
  | passed + 1, text, _ :: cs => stringBody readEscape passed text cs
  | 0, text, c :: cs =>
    if c = '"' then .ok (text.reverse, cs)
    else if c = '\\' then do
      let e ← readEscape cs
      stringBody readEscape e.width (e.char :: text) cs
    else if c.toNat < 0x20 then .error .malformed
    else stringBody readEscape 0 (c :: text) cs

def string (cs : List Char) : Except Error (Scanned String) := do
  let (text, cs) ← stringBody escape 0 [] cs
  .ok (String.ofList text, cs)

def skipString (cs : List Char) : Except Error (Scanned Unit) := do
  let (_, cs) ← stringBody looseEscape 0 [] cs
  .ok ((), cs)

theorem literal_append (word cs : List Char) : literal word (word ++ cs) = .ok ((), cs) := by
  induction word with
  | nil => rfl
  | cons c word ih => simpa [literal] using ih

theorem skipBlanks_cons_of_not {c : Char} (h : isBlank c = false) (cs : List Char) :
    skipBlanks (c :: cs) = c :: cs := by simp [skipBlanks, h]

end LegalMoves.Json
