import LegalMoves.Game.Config
import LegalMoves.Game.Field
import LegalMoves.Json.Write

set_option autoImplicit false

namespace LegalMoves.Config

def writeField (c : Config) : Field → List Char
  | .name => Json.writeString c.name
  | .players => Json.writeNat c.players.toNat
  | .sites => Json.writeNat c.sites.toNat
  | .adjacency =>
    Json.writeList (c.adjacency.toList.map fun row =>
      Json.writeList (row.map fun site => Json.writeNat site.toNat))
  | .mode => Json.writeString c.mode.spelling
  | .noRepeat =>
    match c.noRepeat with
    | some kind => Json.writeString kind.spelling
    | none => Json.writeNull
  | .stochastic => Json.writeBool c.stochastic
  | .hiddenInfo => Json.writeBool c.hiddenInfo

def write (c : Config) : List Char :=
  Json.writeObject (Field.all.map fun field => (field.key, c.writeField field))

def toJson (c : Config) : String := String.ofList c.write

end LegalMoves.Config
