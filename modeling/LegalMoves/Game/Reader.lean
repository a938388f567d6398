import LegalMoves.Game.Basic
import LegalMoves.Game.Field
import LegalMoves.Json.Decode

set_option autoImplicit false

/-!
Reading configurations from JSON. A configuration is an object, or a list of its fields in order. In
an object the fields may come in any order, fields that are not required may be left out, and
members with other keys are passed over. The first error in the order of the text is the answer.
-/
namespace LegalMoves

/-- The fields of a configuration that have been read so far. -/
structure Draft where
  name : Option String := none
  players : Option UInt64 := none
  sites : Option UInt64 := none
  adjacency : Option (Array (List Site)) := none
  mode : Option Mode := none
  noRepeat : Option (Option Repetition) := none
  stochastic : Option Bool := none
  hiddenInfo : Option Bool := none
  deriving Inhabited

namespace Draft

def has (d : Draft) : Field → Bool
  | .name => d.name.isSome
  | .players => d.players.isSome
  | .sites => d.sites.isSome
  | .adjacency => d.adjacency.isSome
  | .mode => d.mode.isSome
  | .noRepeat => d.noRepeat.isSome
  | .stochastic => d.stochastic.isSome
  | .hiddenInfo => d.hiddenInfo.isSome

def readCount (cs : List Char) : Except Json.Error (Json.Scanned UInt64) := do
  let (n, cs) ← Json.natural UInt64.size "usize" cs
  .ok (UInt64.ofNat n, cs)

def readSite (cs : List Char) : Except Json.Error (Json.Scanned Site) := do
  let (n, cs) ← Json.natural UInt32.size "u32" cs
  .ok (Site.ofNat n, cs)

def readField (fuel : Nat) (d : Draft) (field : Field) (cs : List Char) :
    Except Json.Error (Json.Scanned Draft) :=
  match field with
  | .name => do
    let (name, cs) ← Json.text "a string" cs
    .ok ({ d with name }, cs)
  | .players => do
    let (players, cs) ← readCount cs
    .ok ({ d with players }, cs)
  | .sites => do
    let (sites, cs) ← readCount cs
    .ok ({ d with sites }, cs)
  | .adjacency => do
    let (rows, cs) ← Json.list fuel (Json.list fuel readSite) cs
    .ok ({ d with adjacency := rows.toArray }, cs)
  | .mode => do
    let (mode, cs) ← Json.choice Mode.spelling Mode.all cs
    .ok ({ d with mode }, cs)
  | .noRepeat => do
    let (noRepeat, cs) ← Json.optional (Json.choice Repetition.spelling Repetition.all) cs
    .ok ({ d with noRepeat := some noRepeat }, cs)
  | .stochastic => do
    let (stochastic, cs) ← Json.boolean cs
    .ok ({ d with stochastic }, cs)
  | .hiddenInfo => do
    let (hiddenInfo, cs) ← Json.boolean cs
    .ok ({ d with hiddenInfo }, cs)

def require {α : Type} (field : Field) : Option α → Except Json.Error α
  | some value => .ok value
  | none => .error (.mismatch (.missingField field.key))

/-- The configuration of a draft. Fields that are not required have default values. -/
def toConfig (d : Draft) : Except Json.Error Config := do
  let name ← require .name d.name
  let players ← require .players d.players
  let sites ← require .sites d.sites
  .ok { name, players, sites
        adjacency := d.adjacency.getD #[]
        mode := d.mode.getD .alternating
        noRepeat := d.noRepeat.getD none
        stochastic := d.stochastic.getD false
        hiddenInfo := d.hiddenInfo.getD false }

end Draft

namespace Config

def kindName : String := "struct GameConfig"

def lengthName : String := kindName ++ " with 8 elements"

/-- Reads one member of an object from behind the opening quote of its key. -/
def readMember (fuel : Nat) (d : Draft) (cs : List Char) :
    Except Json.Error (Json.Scanned Draft) := do
  let (key, cs) ← Json.string cs
  match Field.ofKey? key with
  | some field =>
    if d.has field then .error (.mismatch (.duplicateField field.key))
    else
      let (_, cs) ← Json.mark ':' cs
      d.readField fuel field cs
  | none =>
    let (_, cs) ← Json.mark ':' cs
    let cs ← Json.skip fuel cs
    .ok (d, cs)

def readMembers (fuel : Nat) : (count : Nat) → (isFirst : Bool) → Draft → Json.Reader Config
  | 0, _, _, _ => .error .truncated
  | count + 1, isFirst, d, cs => do
    let (more, cs) ← Json.nextKey isFirst cs
    if more then
      let (d, cs) ← readMember fuel d cs
      readMembers fuel count false d cs
    else
      let c ← d.toConfig
      .ok (c, cs)

/-- Reads the listed fields of an open list, of which `count` have been read before. -/
def readItems (fuel : Nat) : List Field → (count : Nat) → Draft → Json.Reader Config
  | [], _, d, cs => do
    let c ← d.toConfig
    let (_, cs) ← Json.mark ']' cs
    .ok (c, cs)
  | field :: fields, count, d, cs => do
    let (more, cs) ← Json.nextItem (count == 0) cs
    if more then
      let (d, cs) ← d.readField fuel field cs
      readItems fuel fields (count + 1) d cs
    else if field.isRequired then .error (.mismatch (.invalidLength count lengthName))
    else
      let c ← d.toConfig
      .ok (c, cs)

def read (cs : List Char) : Except Json.Error (Json.Scanned Config) :=
  let fuel := 2 * cs.length
  match Json.skipBlanks cs with
  | '\x7b' :: cs => readMembers fuel (fuel + 1) true {} cs
  | '[' :: cs => readItems fuel Field.all 0 {} cs
  | cs => Json.refuse kindName cs

def parse (cs : List Char) : Except Json.Error Config := do
  let (c, cs) ← read cs
  if (Json.skipBlanks cs).isEmpty then .ok c else .error .malformed

end Config

inductive LoadError where
  | unreadable (cause : Json.Error)
  | invalid (fault : Fault)

/-- The message of an error that is not one of the JSON text itself. -/
def Config.mismatchMessage (cause : Json.Mismatch) : String :=
  "failed to parse game configuration: " ++ cause.message

def Game.ofJson (source : String) : Except LoadError Game :=
  match Config.parse source.toList with
  | .error cause => .error (.unreadable cause)
  | .ok c => (Game.ofConfig c).mapError .invalid

end LegalMoves
