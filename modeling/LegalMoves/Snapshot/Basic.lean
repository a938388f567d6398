import LegalMoves.Player
import LegalMoves.Game.Basic

set_option autoImplicit false

namespace LegalMoves

structure Snapshot where
  players : Nat
  board : Array (Option Player)
  mover : Player := ⟨0⟩
  previous : Player := ⟨0⟩
  turn : UInt32 := 1
  players_bounds : 1 ≤ players ∧ players ≤ 255
  deriving DecidableEq

inductive SeatFault where
  | tooFew
  | tooMany
  deriving DecidableEq, Repr

def SeatFault.message : SeatFault → String
  | .tooFew => "Must have at least 1 player"
  | .tooMany => "At most 255 players supported"

namespace Snapshot

/-- An empty board with player zero to move. -/
def ofSize (players sites : Nat) : Except SeatFault Snapshot :=
  if hpos : players = 0 then .error .tooFew
  else if hle : 255 < players then .error .tooMany
  else .ok { players, board := Array.replicate sites none, players_bounds := by omega }

def ofGame (g : Game) : Snapshot :=
  { players := g.players
    board := Array.replicate g.sites none
    players_bounds := g.players_bounds }

def siteCount (s : Snapshot) : Nat := s.board.size

def owner (s : Snapshot) (site : Site) : Option Player := (s.board[site.toNat]?).join

def isEmpty (s : Snapshot) (site : Site) : Bool := s.board[site.toNat]? == some none

/-- The sites of the board in ascending order; their number is taken modulo `2 ^ 32`. -/
def sites (s : Snapshot) : List Site := (List.range (s.siteCount % UInt32.size)).map Site.ofNat

def sitesOf (s : Snapshot) (p : Player) : List Site :=
  (s.board.toList.zipIdx.filter fun entry => entry.1 == some p).map fun entry => Site.ofNat entry.2

/-- Gives a site of the board to an owner, or empties it. Other sites are ignored. -/
def put (s : Snapshot) (site : Site) (owner : Option Player) : Snapshot :=
  { s with board := s.board.setIfInBounds site.toNat owner }

def putAll (s : Snapshot) (owners : List (Option Player)) : Snapshot :=
  owners.zipIdx.foldl (fun (t : Snapshot) entry => t.put (Site.ofNat entry.2) entry.1) s

def withMover (s : Snapshot) (p : Player) : Snapshot := { s with mover := p, previous := s.mover }

def advance (s : Snapshot) (turns : Nat) : Snapshot :=
  { s with turn := s.turn + UInt32.ofNat turns }

@[simp] theorem siteCount_put (s : Snapshot) (site : Site) (o : Option Player) :
    (s.put site o).siteCount = s.siteCount := by simp [put, siteCount]

theorem owner_eq_none {s : Snapshot} {site : Site} (h : s.siteCount ≤ site.toNat) :
    s.owner site = none := by
  simp [owner, Array.getElem?_eq_none h]

theorem isEmpty_iff {s : Snapshot} {site : Site} :
    s.isEmpty site = true ↔ site.toNat < s.siteCount ∧ s.owner site = none := by
  by_cases h : site.toNat < s.board.size
  · simp [isEmpty, owner, siteCount, h]
  · simp [isEmpty, siteCount, h]

theorem owner_put (s : Snapshot) (site other : Site) (o : Option Player) :
    (s.put site o).owner other =
      if site = other ∧ site.toNat < s.siteCount then o else s.owner other := by
  by_cases h : site = other
  · subst h
    by_cases hlt : site.toNat < s.board.size <;> simp [put, owner, siteCount, hlt]
  · have hne : site.toNat ≠ other.toNat := fun he => h (Site.toNat_injective he)
    simp [put, owner, h, Array.getElem?_setIfInBounds_ne hne]

theorem mem_sites_iff {s : Snapshot} {site : Site} :
    site ∈ s.sites ↔ site.toNat < s.siteCount % UInt32.size := by
  have hsize : s.siteCount % UInt32.size < UInt32.size := Nat.mod_lt _ (by decide)
  rw [sites, List.mem_map]
  constructor
  · intro hmem
    obtain ⟨i, hi, rfl⟩ := hmem
    have hlt := List.mem_range.mp hi
    rwa [Site.toNat_ofNat_of_lt (by omega)]
  · intro hlt
    exact ⟨site.toNat, List.mem_range.mpr hlt, site.ofNat_toNat⟩

theorem pairwise_sites (s : Snapshot) : s.sites.Pairwise (· < ·) := by
  have hsize : s.siteCount % UInt32.size < UInt32.size := Nat.mod_lt _ (by decide)
  refine List.pairwise_map.mpr (List.pairwise_lt_range.imp_of_mem fun {i j} hi hj hlt => ?_)
  have hi := List.mem_range.mp hi
  have hj := List.mem_range.mp hj
  rwa [Site.lt_iff_toNat_lt, Site.toNat_ofNat_of_lt (by omega), Site.toNat_ofNat_of_lt (by omega)]

/-- Whether all pieces stand where a site number leads. -/
def Addressed (s : Snapshot) : Prop := ∀ (i : Nat) p, s.board[i]? = some (some p) → i < UInt32.size

theorem addressed_of_siteCount_le {s : Snapshot} (h : s.siteCount ≤ UInt32.size) :
    s.Addressed := by
  intro i p hi
  have hlt : i < s.siteCount := (Array.getElem?_eq_some_iff.mp hi).1
  omega

theorem mem_sitesOf_iff_of_addressed {s : Snapshot} {p : Player} {site : Site}
    (h : s.Addressed) : site ∈ s.sitesOf p ↔ s.owner site = some p := by
  have hentry : ∀ entry : Option Player × Nat, entry ∈ s.board.toList.zipIdx ↔
      s.board[entry.2]? = some entry.1 := by
    intro entry
    rw [List.mem_zipIdx_iff_getElem?, Array.getElem?_toList]
  simp only [sitesOf, List.mem_map, List.mem_filter, hentry, beq_iff_eq]
  constructor
  · intro hmem
    obtain ⟨⟨o, i⟩, ⟨hi, rfl⟩, rfl⟩ := hmem
    rw [owner, Site.toNat_ofNat_of_lt (h i p hi), hi]
    rfl
  · intro howner
    exact ⟨(some p, site.toNat), ⟨Option.join_eq_some_iff.mp howner, rfl⟩, site.ofNat_toNat⟩

theorem pairwise_sitesOf_of_addressed {s : Snapshot} (h : s.Addressed) (p : Player) :
    (s.sitesOf p).Pairwise (· < ·) := by
  have hindices : s.board.toList.zipIdx.Pairwise fun a b => a.2 < b.2 := by
    rw [← List.pairwise_map (f := Prod.snd) (R := fun i j => i < j), List.zipIdx_map_snd]
    exact List.pairwise_lt_range'
  have hbound : ∀ entry ∈ s.board.toList.zipIdx.filter fun entry => entry.1 == some p,
      entry.2 < UInt32.size := by
    intro entry hmem
    obtain ⟨hentry, hp⟩ := List.mem_filter.mp hmem
    rw [List.mem_zipIdx_iff_getElem?, Array.getElem?_toList, eq_of_beq hp] at hentry
    exact h entry.2 p hentry
  refine List.pairwise_map.mpr ((hindices.filter _).imp_of_mem fun ha hb hlt => ?_)
  rw [Site.lt_iff_toNat_lt, Site.toNat_ofNat_of_lt (hbound _ ha),
    Site.toNat_ofNat_of_lt (hbound _ hb)]
  exact hlt

theorem mem_sitesOf_iff {s : Snapshot} {p : Player} {site : Site}
    (h : s.siteCount ≤ UInt32.size) : site ∈ s.sitesOf p ↔ s.owner site = some p :=
  mem_sitesOf_iff_of_addressed (addressed_of_siteCount_le h)

theorem pairwise_sitesOf {s : Snapshot} (h : s.siteCount ≤ UInt32.size) (p : Player) :
    (s.sitesOf p).Pairwise fun a b => a.toNat < b.toNat :=
  pairwise_sitesOf_of_addressed (addressed_of_siteCount_le h) p

theorem ofSize_eq_ok {s : Snapshot} {players sites : Nat} (h : ofSize players sites = .ok s) :
    s.players = players ∧ s.board = Array.replicate sites none ∧ s.mover = ⟨0⟩ ∧ s.turn = 1 := by
  unfold ofSize at h
  split at h
  · cases h
  · split at h
    · cases h
    · cases h
      exact ⟨rfl, rfl, rfl, rfl⟩

theorem siteCount_ofSize {s : Snapshot} {players sites : Nat} (h : ofSize players sites = .ok s) :
    s.siteCount = sites := by
  rw [siteCount, (ofSize_eq_ok h).2.1, Array.size_replicate]

theorem owner_ofSize {s : Snapshot} {players sites : Nat} (h : ofSize players sites = .ok s)
    (site : Site) : s.owner site = none := by
  rw [owner, (ofSize_eq_ok h).2.1, Array.getElem?_replicate]
  split <;> rfl

theorem exists_ofSize {players : Nat} (h : 1 ≤ players ∧ players ≤ 255) (sites : Nat) :
    ∃ s, ofSize players sites = .ok s := by
  rw [ofSize, dif_neg (by omega), dif_neg (by omega)]
  exact ⟨_, rfl⟩

theorem ofSize_eq_ofGame (g : Game) : ofSize g.players g.sites = .ok (ofGame g) := by
  have h := g.players_bounds
  unfold ofSize ofGame
  split
  · omega
  · split
    · omega
    · rfl

end Snapshot
end LegalMoves
