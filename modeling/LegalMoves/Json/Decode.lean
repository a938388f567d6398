import LegalMoves.Json.Skip

set_option autoImplicit false

/-!
Reading wanted values from JSON texts. Where another value stands, it is read as far as it takes to
say what it is; an error in that part of the text comes first.
-/
namespace LegalMoves.Json

variable {α : Type}

/-- What stands at the front of a text without blanks. Of a list or an object only the bracket is
read. -/
def found : List Char → Except Error Found
  | [] => .error .truncated
  | 'n' :: cs => do
    let _ ← literal ['u', 'l', 'l'] cs
    .ok .null
  | 't' :: cs => do
    let _ ← literal ['r', 'u', 'e'] cs
    .ok (.boolean true)
  | 'f' :: cs => do
    let _ ← literal ['a', 'l', 's', 'e'] cs
    .ok (.boolean false)
  | '"' :: cs => do
    let (s, _) ← string cs
    .ok (.string s)
  | '[' :: _ => .ok .list
  | '\x7b' :: _ => .ok .object
  | c :: cs =>
    if c = '-' ∨ (digit? c).isSome then do
      let (n, _) ← number (c :: cs)
      .ok (.number n)
    else .error .malformed

def refuse (wanted : String) (cs : List Char) : Except Error α := do
  let f ← found cs
  .error (.mismatch (.invalidType f wanted))

def natural (limit : Nat) (wanted : String) (cs : List Char) : Except Error (Scanned Nat) :=
  match skipBlanks cs with
  | [] => .error .truncated
  | c :: cs =>
    if c = '-' ∨ (digit? c).isSome then do
      match ← number (c :: cs) with
      | (.integer value, rest) =>
        if 0 ≤ value ∧ value < limit then .ok (value.toNat, rest)
        else .error (.mismatch (.invalidValue value wanted))
      | (n, _) => .error (.mismatch (.invalidType (.number n) wanted))
    else refuse wanted (c :: cs)

def boolean (cs : List Char) : Except Error (Scanned Bool) :=
  match skipBlanks cs with
  | 't' :: cs => do
    let (_, cs) ← literal ['r', 'u', 'e'] cs
    .ok (true, cs)
  | 'f' :: cs => do
    let (_, cs) ← literal ['a', 'l', 's', 'e'] cs
    .ok (false, cs)
  | cs => refuse "a boolean" cs

def text (wanted : String) (cs : List Char) : Except Error (Scanned String) :=
  match skipBlanks cs with
  | '"' :: cs => string cs
  | cs => refuse wanted cs

def unit (cs : List Char) : Except Error (Scanned Unit) :=
  match skipBlanks cs with
  | 'n' :: cs => literal ['u', 'l', 'l'] cs
  | cs => refuse "unit" cs

def choiceOf (spelling : α → String) (choices : List α) (word : String) : Except Error α :=
  match choices.find? fun choice => spelling choice == word with
  | some choice => .ok choice
  | none => .error (.mismatch (.unknownVariant word (choices.map spelling)))

/-- Reads one of several words, as a string or as the only key of an object whose value is `null`.
-/
def choice (spelling : α → String) (choices : List α) (cs : List Char) : Except Error (Scanned α) :=
  match skipBlanks cs with
  | [] => .error .truncated
  | '"' :: cs => do
    let (word, cs) ← string cs
    let c ← choiceOf spelling choices word
    .ok (c, cs)
  | '\x7b' :: cs => do
    let (_, cs) ← mark '"' cs
    let (word, cs) ← string cs
    let c ← choiceOf spelling choices word
    let (_, cs) ← mark ':' cs
    let (_, cs) ← unit cs
    let (_, cs) ← mark '\x7d' cs
    .ok (c, cs)
  | _ :: _ => .error .malformed

def optional (item : Reader α) (cs : List Char) : Except Error (Scanned (Option α)) :=
  match skipBlanks cs with
  | 'n' :: cs => do
    let (_, cs) ← literal ['u', 'l', 'l'] cs
    .ok (none, cs)
  | cs => do
    let (value, cs) ← item cs
    .ok (some value, cs)

/-- Goes to the next item of an open list: whether there is one, and the text from there, or from
behind the bracket that closes the list. -/
def nextItem (isFirst : Bool) (cs : List Char) : Except Error (Scanned Bool) :=
  match skipBlanks cs with
  | [] => .error .truncated
  | c :: cs =>
    if c = ']' then .ok (false, cs)
    else if isFirst then .ok (true, c :: cs)
    else if c = ',' then
      match skipBlanks cs with
      | [] => .error .truncated
      | d :: cs => if d = ']' then .error .malformed else .ok (true, d :: cs)
    else .error .malformed

/-- Goes to the next key of an open object: whether there is one, and the text from behind its
opening quote, or from behind the brace that closes the object. -/
def nextKey (isFirst : Bool) (cs : List Char) : Except Error (Scanned Bool) :=
  match skipBlanks cs with
  | [] => .error .truncated
  | c :: cs =>
    if c = '\x7d' then .ok (false, cs)
    else if isFirst then
      if c = '"' then .ok (true, cs) else .error .malformed
    else if c = ',' then do
      let (_, cs) ← mark '"' cs
      .ok (true, cs)
    else .error .malformed

def items (item : Reader α) : (fuel : Nat) → (isFirst : Bool) → List Char →
    Except Error (Scanned (List α))
  | 0, _, _ => .error .truncated
  | fuel + 1, isFirst, cs => do
    let (more, cs) ← nextItem isFirst cs
    if more then
      let (x, cs) ← item cs
      let (xs, cs) ← items item fuel false cs
      .ok (x :: xs, cs)
    else .ok ([], cs)

/-- Reads a list. The fuel is enough if it is the length of the text. -/
def list (fuel : Nat) (item : Reader α) (cs : List Char) : Except Error (Scanned (List α)) :=
  match skipBlanks cs with
  | '[' :: cs => items item (fuel + 1) true cs
  | cs => refuse "a sequence" cs

end LegalMoves.Json
