import LegalMoves.Snapshot.Basic

set_option autoImplicit false

namespace LegalMoves
namespace Config

variable {c : Config}

def PlayersFit (c : Config) : Prop := 1 ≤ c.players.toNat ∧ c.players.toNat ≤ 255

def SitesFit (c : Config) : Prop := 1 ≤ c.sites.toNat ∧ c.sites.toNat < 4294967295

def RowsFit (c : Config) : Prop := c.adjacency.size = 0 ∨ c.adjacency.size = c.sites.toNat

def neighbourAt? (c : Config) (site position : Nat) : Option Site :=
  (c.adjacency[site]?).bind (·[position]?)

def EntriesFit (c : Config) : Prop :=
  ∀ site position n, c.neighbourAt? site position = some n → n.toNat < c.sites.toNat

structure WellFormed (c : Config) : Prop where
  players : c.PlayersFit
  sites : c.SitesFit
  rows : c.RowsFit
  entries : c.EntriesFit

/-- An entry that names no site of the board, while all entries before it, site by site and position
by position, do. -/
structure FirstStray (c : Config) (site position : Nat) (n : Site) : Prop where
  entry : c.neighbourAt? site position = some n
  stray : c.sites.toNat ≤ n.toNat
  first : ∀ site' position' n', site' < site ∨ site' = site ∧ position' < position →
    c.neighbourAt? site' position' = some n' → n'.toNat < c.sites.toNat

inductive FirstFault (c : Config) : Fault → Prop where
  | players (broken : ¬ c.PlayersFit) : FirstFault c (.players c.players)
  | sites (players : c.PlayersFit) (broken : ¬ c.SitesFit) : FirstFault c (.sites c.sites)
  | rows (players : c.PlayersFit) (sites : c.SitesFit) (broken : ¬ c.RowsFit) :
      FirstFault c (.adjacencyLength c.sites.toNat c.adjacency.size)
  | entry (players : c.PlayersFit) (sites : c.SitesFit) (rows : c.RowsFit) {site position : Nat}
      {n : Site} (broken : c.FirstStray site position n) :
      FirstFault c (.adjacencyEntry site n.toNat c.sites.toNat)

theorem FirstStray.unique {site site' position position' : Nat} {n n' : Site}
    (h : c.FirstStray site position n) (h' : c.FirstStray site' position' n') :
    site = site' ∧ n = n' := by
  have hbefore : ¬ (site < site' ∨ site = site' ∧ position < position') := fun hlt =>
    Nat.not_lt_of_le h.stray (h'.first site position n hlt h.entry)
  have hafter : ¬ (site' < site ∨ site' = site ∧ position' < position) := fun hlt =>
    Nat.not_lt_of_le h'.stray (h.first site' position' n' hlt h'.entry)
  obtain rfl : site = site' := by omega
  obtain rfl : position = position' := by omega
  exact ⟨rfl, Option.some.inj (h.entry.symm.trans h'.entry)⟩

theorem neighbourAt?_eq_some_iff {site position : Nat} {n : Site} :
    c.neighbourAt? site position = some n ↔
      ∃ row, c.adjacency[site]? = some row ∧ row[position]? = some n := by
  rw [neighbourAt?, Option.bind_eq_some_iff]

theorem entriesFit_iff :
    c.EntriesFit ↔ ∀ row ∈ c.adjacency.toList, ∀ n ∈ row, n.toNat < c.sites.toNat := by
  constructor
  · intro h row hrow n hn
    obtain ⟨site, hsite⟩ := List.getElem?_of_mem hrow
    obtain ⟨position, hposition⟩ := List.getElem?_of_mem hn
    exact h site position n (neighbourAt?_eq_some_iff.mpr ⟨row, by simpa using hsite, hposition⟩)
  · intro h site position n hentry
    obtain ⟨row, hsite, hposition⟩ := neighbourAt?_eq_some_iff.mp hentry
    exact h row (Array.mem_toList_iff.mpr (Array.mem_of_getElem? hsite)) n
      (List.mem_of_getElem? hposition)

theorem strayEntry?_eq_none_iff : c.strayEntry? = none ↔ c.EntriesFit := by
  rw [entriesFit_iff, strayEntry?, List.findSome?_eq_none_iff]
  constructor
  · intro h row hrow n hn
    obtain ⟨site, hsite⟩ := List.getElem?_of_mem hrow
    have hnone := h (row, site) (List.mem_zipIdx_iff_getElem?.mpr hsite)
    rw [Option.map_eq_none_iff, List.find?_eq_none] at hnone
    simpa using hnone n hn
  · intro h entry hentry
    have hsite := List.mem_zipIdx_iff_getElem?.mp hentry
    rw [Option.map_eq_none_iff, List.find?_eq_none]
    intro n hn
    simpa using h entry.1 (List.mem_of_getElem? hsite) n hn

theorem getElem?_of_zipIdx_eq {rows : List (List Site)} {before after : List (List Site × Nat)}
    {row : List Site} {site : Nat} (h : rows.zipIdx = before ++ (row, site) :: after) :
    rows[site]? = some row ∧
      ∀ site' row', site' < site → rows[site']? = some row' → (row', site') ∈ before := by
  have hnumber : ∀ k : Nat, (before ++ (row, site) :: after)[k]? =
      rows[k]?.map fun found => (found, k) := by
    intro k
    rw [← h, List.getElem?_zipIdx, Nat.zero_add]
  have hhere := hnumber before.length
  rw [List.getElem?_append_right (Nat.le_refl _), Nat.sub_self, List.getElem?_cons_zero, eq_comm,
    Option.map_eq_some_iff] at hhere
  obtain ⟨row', hrow, hpair⟩ := hhere
  obtain ⟨rfl, rfl⟩ := Prod.mk.inj hpair
  refine ⟨hrow, fun site' row' hlt hrow' => List.mem_of_getElem? (i := site') ?_⟩
  rw [← List.getElem?_append_left hlt, hnumber, hrow']
  rfl

theorem exists_firstStray {fault : Fault} (h : c.strayEntry? = some fault) :
    ∃ site position n, c.FirstStray site position n ∧
      fault = .adjacencyEntry site n.toNat c.sites.toNat := by
  obtain ⟨before, ⟨row, site⟩, after, hsplit, hfound, hbefore⟩ := List.findSome?_eq_some_iff.mp h
  obtain ⟨n, hn, hfault⟩ := Option.map_eq_some_iff.mp hfound
  obtain ⟨hstray, position, hposition, hentry, hearlier⟩ := List.find?_eq_some_iff_getElem.mp hn
  obtain ⟨hsite, hearlierRows⟩ := getElem?_of_zipIdx_eq hsplit
  refine ⟨site, position, n, ⟨?_, by simpa using hstray, ?_⟩, hfault.symm⟩
  · have hat : row[position]? = some n := List.getElem?_eq_some_iff.mpr ⟨hposition, hentry⟩
    exact neighbourAt?_eq_some_iff.mpr ⟨row, by simpa using hsite, hat⟩
  · intro site' position' n' hlt hentry'
    obtain ⟨row', hsite', hposition'⟩ := neighbourAt?_eq_some_iff.mp hentry'
    -- The search passed all rows in front of this one, and all positions in front of it here.
    rcases hlt with hlt | ⟨rfl, hlt⟩
    · have hrow' := hbefore _ (hearlierRows site' row' hlt (by simpa using hsite'))
      rw [Option.map_eq_none_iff, List.find?_eq_none] at hrow'
      simpa using hrow' n' (List.mem_of_getElem? hposition')
    · have hrow : row' = row := by simpa [hsite'] using hsite
      subst hrow
      obtain ⟨hbound, rfl⟩ := List.getElem?_eq_some_iff.mp hposition'
      simpa using hearlier position' hlt

theorem strayEntry?_eq_some_iff {fault : Fault} :
    c.strayEntry? = some fault ↔ ∃ site position n, c.FirstStray site position n ∧
      fault = .adjacencyEntry site n.toNat c.sites.toNat := by
  refine ⟨exists_firstStray, fun ⟨site, position, n, hstray, hfault⟩ => ?_⟩
  cases hsearch : c.strayEntry? with
  | none =>
    have hfit := strayEntry?_eq_none_iff.mp hsearch site position n hstray.entry
    exact absurd hstray.stray (Nat.not_le_of_lt hfit)
  | some fault' =>
    obtain ⟨site', position', n', hstray', hfault'⟩ := exists_firstStray hsearch
    obtain ⟨rfl, rfl⟩ := hstray.unique hstray'
    rw [hfault, hfault']

theorem fault?_of_not_playersFit (h : ¬ c.PlayersFit) : c.fault? = some (.players c.players) := by
  unfold PlayersFit at h
  rw [fault?, if_pos (by omega)]

theorem fault?_of_not_sitesFit (hplayers : c.PlayersFit) (h : ¬ c.SitesFit) :
    c.fault? = some (.sites c.sites) := by
  have hsize : UInt32.size = 4294967296 := rfl
  unfold PlayersFit at hplayers
  unfold SitesFit at h
  rw [fault?, if_neg (by omega), if_pos (by omega)]

theorem fault?_of_not_rowsFit (hplayers : c.PlayersFit) (hsites : c.SitesFit) (h : ¬ c.RowsFit) :
    c.fault? = some (.adjacencyLength c.sites.toNat c.adjacency.size) := by
  have hsize : UInt32.size = 4294967296 := rfl
  unfold PlayersFit at hplayers
  unfold SitesFit at hsites
  unfold RowsFit at h
  rw [fault?, if_neg (by omega), if_neg (by omega), if_pos (by omega)]

theorem fault?_of_rowsFit (hplayers : c.PlayersFit) (hsites : c.SitesFit) (hrows : c.RowsFit) :
    c.fault? = c.strayEntry? := by
  have hsize : UInt32.size = 4294967296 := rfl
  unfold PlayersFit at hplayers
  unfold SitesFit at hsites
  unfold RowsFit at hrows
  rw [fault?, if_neg (by omega), if_neg (by omega), if_neg (by omega)]

theorem fault?_eq_none_iff : c.fault? = none ↔ c.WellFormed := by
  by_cases hplayers : c.PlayersFit
  · by_cases hsites : c.SitesFit
    · by_cases hrows : c.RowsFit
      · rw [fault?_of_rowsFit hplayers hsites hrows, strayEntry?_eq_none_iff]
        exact ⟨fun h => ⟨hplayers, hsites, hrows, h⟩, fun h => h.entries⟩
      · rw [fault?_of_not_rowsFit hplayers hsites hrows]
        exact iff_of_false (by simp) fun h => hrows h.rows
    · rw [fault?_of_not_sitesFit hplayers hsites]
      exact iff_of_false (by simp) fun h => hsites h.sites
  · rw [fault?_of_not_playersFit hplayers]
    exact iff_of_false (by simp) fun h => hplayers h.players

theorem fault?_eq_some_iff {fault : Fault} : c.fault? = some fault ↔ c.FirstFault fault := by
  constructor
  · intro h
    by_cases hplayers : c.PlayersFit
    · by_cases hsites : c.SitesFit
      · by_cases hrows : c.RowsFit
        · rw [fault?_of_rowsFit hplayers hsites hrows, strayEntry?_eq_some_iff] at h
          obtain ⟨site, position, n, hstray, rfl⟩ := h
          exact .entry hplayers hsites hrows hstray
        · rw [fault?_of_not_rowsFit hplayers hsites hrows] at h
          exact Option.some.inj h ▸ .rows hplayers hsites hrows
      · rw [fault?_of_not_sitesFit hplayers hsites] at h
        exact Option.some.inj h ▸ .sites hplayers hsites
    · rw [fault?_of_not_playersFit hplayers] at h
      exact Option.some.inj h ▸ .players hplayers
  · intro h
    cases h with
    | players broken => exact fault?_of_not_playersFit broken
    | sites players broken => exact fault?_of_not_sitesFit players broken
    | rows players sites broken => exact fault?_of_not_rowsFit players sites broken
    | entry players sites rows broken =>
      rw [fault?_of_rowsFit players sites rows, strayEntry?_eq_some_iff]
      exact ⟨_, _, _, broken, rfl⟩

end Config

namespace Game

/-- The board of a game as the players find it. It can be set up; its sites are the numbers below
their count in order; the place off the board is none of them, and every neighbour is one. -/
structure BoardFits (g : Game) : Prop where
  setUp : Snapshot.ofSize g.players g.sites = .ok (Snapshot.ofGame g)
  sites : (Snapshot.ofGame g).sites.map Site.toNat = List.range g.sites
  offBoard : (Snapshot.ofGame g).siteCount ≤ Site.offBoard.toNat
  neighbours : ∀ s, ∀ n ∈ g.neighbours s,
    n ∈ (Snapshot.ofGame g).sites ∧ n.toNat < (Snapshot.ofGame g).siteCount ∧ n ≠ .offBoard

theorem sites_ofGame (g : Game) :
    (Snapshot.ofGame g).sites = (List.range g.sites).map Site.ofNat := by
  have hsites := g.sites_bounds
  have hcount : (Snapshot.ofGame g).siteCount = g.sites := Array.size_replicate
  rw [Snapshot.sites, hcount, Nat.mod_eq_of_lt (by omega)]

theorem map_toNat_sites_ofGame (g : Game) :
    (Snapshot.ofGame g).sites.map Site.toNat = List.range g.sites := by
  have hsites := g.sites_bounds
  rw [sites_ofGame, List.map_map]
  refine (List.map_congr_left fun i hi => ?_).trans (List.map_id _)
  have hlt := List.mem_range.mp hi
  exact Site.toNat_ofNat_of_lt (by omega)

theorem toNat_lt_of_mem_neighbours {g : Game} {s n : Site} (h : n ∈ g.neighbours s) :
    n.toNat < g.sites := by
  have hentries := (Config.fault?_eq_none_iff.mp g.faultless).entries
  rw [neighbours, Config.neighbours] at h
  cases hrow : g.config.adjacency[s.toNat]? with
  | none => simp [hrow] at h
  | some row =>
    obtain ⟨position, hposition⟩ := List.getElem?_of_mem (show n ∈ row by simpa [hrow] using h)
    exact hentries s.toNat position n (Config.neighbourAt?_eq_some_iff.mpr ⟨row, hrow, hposition⟩)

theorem boardFits (g : Game) : g.BoardFits := by
  have hsites := g.sites_bounds
  have hcount : (Snapshot.ofGame g).siteCount = g.sites := Array.size_replicate
  have hoff : g.sites ≤ Site.offBoard.toNat := by
    rw [Site.toNat_offBoard]
    omega
  refine ⟨Snapshot.ofSize_eq_ofGame g, map_toNat_sites_ofGame g, hcount ▸ hoff, fun s n hn => ?_⟩
  have hlt := toNat_lt_of_mem_neighbours hn
  refine ⟨?_, hcount ▸ hlt, ?_⟩
  · rw [sites_ofGame]
    exact List.mem_map.mpr ⟨n.toNat, List.mem_range.mpr hlt, n.ofNat_toNat⟩
  · intro heq
    rw [heq] at hlt
    omega

theorem exists_ofConfig_eq_ok_iff {c : Config} : (∃ g, ofConfig c = .ok g) ↔ c.WellFormed := by
  rw [← Config.fault?_eq_none_iff]
  constructor
  · intro h
    obtain ⟨g, hg⟩ := h
    rw [← ofConfig_eq_ok_iff.mp hg]
    exact g.faultless
  · intro h
    exact ⟨⟨c, h⟩, ofConfig_eq_ok_iff.mpr rfl⟩

theorem ofConfig_eq_ok_iff_wellFormed {c : Config} {g : Game} :
    ofConfig c = .ok g ↔ c.WellFormed ∧ g.config = c := by
  constructor
  · intro h
    exact ⟨exists_ofConfig_eq_ok_iff.mp ⟨g, h⟩, ofConfig_eq_ok_iff.mp h⟩
  · intro h
    exact ofConfig_eq_ok_iff.mpr h.2

theorem ofConfig_eq_error_iff_firstFault {c : Config} {fault : Fault} :
    ofConfig c = .error fault ↔ c.FirstFault fault := by
  rw [ofConfig_eq_error_iff, Config.fault?_eq_some_iff]

/-- A configuration is a game exactly if it is well formed, and then the game has this very
configuration; else it is refused with the fault of the first check that fails. Every game, be it
built or read, has a board on which nothing leads off the board. -/
theorem ofConfig_exact (c : Config) :
    ((∃ g, ofConfig c = .ok g) ↔ c.WellFormed) ∧
      (∀ g, ofConfig c = .ok g ↔ c.WellFormed ∧ g.config = c) ∧
      (∀ fault, ofConfig c = .error fault ↔ c.FirstFault fault) ∧
      ∀ g : Game, g.BoardFits :=
  ⟨exists_ofConfig_eq_ok_iff, fun _ => ofConfig_eq_ok_iff_wellFormed,
    fun _ => ofConfig_eq_error_iff_firstFault, boardFits⟩

end Game
end LegalMoves
