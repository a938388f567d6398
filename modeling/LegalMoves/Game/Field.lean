set_option autoImplicit false

namespace LegalMoves

inductive Field where
  | name
  | players
  | sites
  | adjacency
  | mode
  | noRepeat
  | stochastic
  | hiddenInfo
  deriving DecidableEq, Inhabited, Repr

namespace Field

def all : List Field :=
  [name, players, sites, adjacency, mode, noRepeat, stochastic, hiddenInfo]

def key : Field → String
  | name => "name"
  | players => "player_count"
  | sites => "site_count"
  | adjacency => "adjacency"
  | mode => "mode"
  | noRepeat => "no_repeat"
  | stochastic => "stochastic"
  | hiddenInfo => "hidden_info"

def ofKey? (key : String) : Option Field := all.find? fun f => f.key == key

def isRequired : Field → Bool
  | name | players | sites => true
  | adjacency | mode | noRepeat | stochastic | hiddenInfo => false

theorem mem_all (f : Field) : f ∈ all := by cases f <;> decide

theorem ofKey?_key (f : Field) : ofKey? f.key = some f := by cases f <;> decide

end Field
end LegalMoves
