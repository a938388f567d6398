import LegalMoves.Capability

set_option autoImplicit false

namespace LegalMoves

inductive Repetition where
  /-- Same piece placement, anywhere in the game. -/
  | positionalInGame
  /-- Same placement and same player to move, anywhere in the game. -/
  | situationalInGame
  /-- Same placement within the current turn. -/
  | positionalInTurn
  /-- Same placement and player to move within the current turn. -/
  | situationalInTurn
  deriving DecidableEq, Inhabited, Repr

namespace Repetition

def all : List Repetition :=
  [positionalInGame, situationalInGame, positionalInTurn, situationalInTurn]

def isSituational : Repetition → Bool
  | positionalInGame | positionalInTurn => false
  | situationalInGame | situationalInTurn => true

def capability : Repetition → Capabilities
  | positionalInGame => .repeatPositionalInGame
  | situationalInGame => .repeatSituationalInGame
  | positionalInTurn => .repeatPositionalInTurn
  | situationalInTurn => .repeatSituationalInTurn

def spelling : Repetition → String
  | positionalInGame => "positional_in_game"
  | situationalInGame => "situational_in_game"
  | positionalInTurn => "positional_in_turn"
  | situationalInTurn => "situational_in_turn"

def ofSpelling? (word : String) : Option Repetition := all.find? (·.spelling == word)

def label : Repetition → String
  | positionalInGame => "PositionalInGame"
  | situationalInGame => "SituationalInGame"
  | positionalInTurn => "PositionalInTurn"
  | situationalInTurn => "SituationalInTurn"

theorem mem_all (k : Repetition) : k ∈ all := by cases k <;> decide

theorem ofSpelling?_spelling (k : Repetition) : ofSpelling? k.spelling = some k := by
  cases k <;> decide

theorem needsHistory_capability (k : Repetition) : k.capability.needsHistory = true := by
  cases k <;> decide

end Repetition
end LegalMoves
