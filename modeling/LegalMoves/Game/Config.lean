import LegalMoves.Site
import LegalMoves.Repetition

set_option autoImplicit false

namespace LegalMoves

inductive Mode where
  | alternating
  | simultaneous
  deriving DecidableEq, Inhabited, Repr

namespace Mode

def all : List Mode := [alternating, simultaneous]

def spelling : Mode → String
  | alternating => "alternating"
  | simultaneous => "simultaneous"

def ofSpelling? (word : String) : Option Mode := all.find? (·.spelling == word)

theorem ofSpelling?_spelling (m : Mode) : ofSpelling? m.spelling = some m := by
  cases m <;> decide

end Mode

/-- What a game is made of. An empty adjacency table means that no sites are connected. -/
structure Config where
  name : String
  players : UInt64
  sites : UInt64
  adjacency : Array (List Site) := #[]
  mode : Mode := .alternating
  noRepeat : Option Repetition := none
  stochastic : Bool := false
  hiddenInfo : Bool := false
  deriving DecidableEq, Inhabited, Repr

inductive Fault where
  | players (count : UInt64)
  | sites (count : UInt64)
  | adjacencyLength (expected given : Nat)
  | adjacencyEntry (site neighbour sites : Nat)
  deriving DecidableEq, Repr

def Fault.message : Fault → String
  | .players count => s!"invalid player count {count} (expected 1..=255)"
  | .sites count => s!"invalid site count {count} (a game needs at least one site)"
  | .adjacencyLength expected given =>
      s!"adjacency lists cover {given} sites, expected {expected}"
  | .adjacencyEntry site neighbour boardSize =>
      s!"adjacency of site {site} refers to site {neighbour}, but the board has {boardSize} sites"

namespace Config

def lineNeighbours (n i : Nat) : List Site :=
  (if 0 < i then [Site.ofNat (i - 1)] else []) ++ (if i + 1 < n then [Site.ofNat (i + 1)] else [])

def line (c : Config) : Config :=
  { c with adjacency := (Array.range c.sites.toNat).map (lineNeighbours c.sites.toNat) }

def strayEntry? (c : Config) : Option Fault :=
  c.adjacency.toList.zipIdx.findSome? fun (row, site) =>
    (row.find? fun n => decide (c.sites.toNat ≤ n.toNat)).map fun n =>
      .adjacencyEntry site n.toNat c.sites.toNat

/-- The first fault in the order players, sites, table length, table entries. -/
def fault? (c : Config) : Option Fault :=
  if c.players.toNat = 0 ∨ 255 < c.players.toNat then some (.players c.players)
  else if c.sites.toNat = 0 ∨ UInt32.size - 1 ≤ c.sites.toNat then some (.sites c.sites)
  else if c.adjacency.size ≠ 0 ∧ c.adjacency.size ≠ c.sites.toNat then
    some (.adjacencyLength c.sites.toNat c.adjacency.size)
  else c.strayEntry?

def neighbours (c : Config) (s : Site) : List Site := (c.adjacency[s.toNat]?).getD []

def capabilities (c : Config) : Capabilities :=
  (if c.mode = .simultaneous then .simultaneous else ∅)
    ∪ (if c.stochastic then .stochastic else ∅)
    ∪ (if c.hiddenInfo then .hiddenInfo else ∅)
    ∪ (match c.noRepeat with
      | some kind => kind.capability
      | none => ∅)

theorem size_line (c : Config) : c.line.adjacency.size = c.sites.toNat := by simp [line]

end Config
end LegalMoves
