import LegalMoves.Game.Config

set_option autoImplicit false

namespace LegalMoves

structure Game where
  config : Config
  faultless : config.fault? = none

namespace Game

def ofConfig (c : Config) : Except Fault Game :=
  match h : c.fault? with
  | none => .ok ⟨c, h⟩
  | some fault => .error fault

def name (g : Game) : String := g.config.name

def players (g : Game) : Nat := g.config.players.toNat

def sites (g : Game) : Nat := g.config.sites.toNat

def noRepeat (g : Game) : Option Repetition := g.config.noRepeat

def neighbours (g : Game) (s : Site) : List Site := g.config.neighbours s

def capabilities (g : Game) : Capabilities := g.config.capabilities

def table (g : Game) : Array (List Site) :=
  (Array.range (g.sites % UInt32.size)).map fun i => g.neighbours (Site.ofNat i)

@[ext] theorem ext {g h : Game} (hc : g.config = h.config) : g = h := by
  cases g; cases h; simp_all

theorem ofConfig_config (g : Game) : ofConfig g.config = .ok g := by
  unfold ofConfig
  split
  · rfl
  · rename_i fault h
    rw [g.faultless] at h
    exact absurd h (by simp)

theorem ofConfig_eq_ok_iff {c : Config} {g : Game} : ofConfig c = .ok g ↔ g.config = c := by
  constructor
  · intro h
    unfold ofConfig at h
    split at h
    · exact (Except.ok.inj h) ▸ rfl
    · exact absurd h (by simp)
  · rintro rfl
    exact ofConfig_config g

theorem ofConfig_eq_error_iff {c : Config} {fault : Fault} :
    ofConfig c = .error fault ↔ c.fault? = some fault := by
  unfold ofConfig
  split <;> simp_all

theorem players_bounds (g : Game) : 1 ≤ g.players ∧ g.players ≤ 255 := by
  have h := g.faultless
  unfold Config.fault? at h
  split at h
  · exact absurd h (by simp)
  · unfold players; omega

theorem sites_bounds (g : Game) : 1 ≤ g.sites ∧ g.sites < UInt32.size - 1 := by
  have hsize : UInt32.size = 4294967296 := rfl
  have h := g.faultless
  unfold Config.fault? at h
  split at h
  · exact absurd h (by simp)
  · split at h
    · exact absurd h (by simp)
    · unfold sites; omega

theorem size_adjacency (g : Game) :
    g.config.adjacency.size = 0 ∨ g.config.adjacency.size = g.sites := by
  have h := g.faultless
  unfold Config.fault? at h
  split at h
  · exact absurd h (by simp)
  · split at h
    · exact absurd h (by simp)
    · split at h
      · exact absurd h (by simp)
      · unfold sites; omega

theorem neighbours_of_sites_le (g : Game) {s : Site} (h : g.sites ≤ s.toNat) :
    g.neighbours s = [] := by
  have hsize := g.size_adjacency
  have hout : g.config.adjacency[s.toNat]? = none := by
    rw [Array.getElem?_eq_none]
    omega
  simp [neighbours, Config.neighbours, hout]

/-- The table of a game says of every site what the game says, also of sites beyond the board. -/
theorem getElem?_table (g : Game) (s : Site) : (g.table[s.toNat]?).getD [] = g.neighbours s := by
  have hsites := g.sites_bounds
  have htable : g.table = (Array.range g.sites).map fun i => g.neighbours (Site.ofNat i) := by
    rw [table, Nat.mod_eq_of_lt (by omega)]
  rw [htable]
  by_cases h : s.toNat < g.sites
  · simp [h]
  · have hnone := g.neighbours_of_sites_le (Nat.le_of_not_lt h)
    simp [h, hnone]

end Game
end LegalMoves
