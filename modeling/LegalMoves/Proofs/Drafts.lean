import LegalMoves.Game.Reader
import LegalMoves.Game.Writer
import LegalMoves.Proofs.ReadBack

set_option autoImplicit false

namespace LegalMoves

/-- A member of an object that lists a configuration: a field, or a key of no field with any value
in writing. -/
inductive Entry where
  | field (f : Field)
  | other (key : String) (value : List Char)

namespace Entry

def field? : Entry → Option Field
  | field f => some f
  | other _ _ => none

def member (c : Config) : Entry → String × List Char
  | field f => (f.key, c.writeField f)
  | other key value => (key, value)

/-- A member that is not a field has a key of its own, and any value of the grammar. -/
def Fits : Entry → Prop
  | field _ => True
  | other key value => (∀ f : Field, f.key ≠ key) ∧ Json.Derives .value value

end Entry

namespace Config

def bare (c : Config) : Config := { name := c.name, players := c.players, sites := c.sites }

/-- A field that can be left out in writing. -/
def HasDefault (c : Config) : Field → Prop
  | .name | .players | .sites => False
  | .adjacency => c.adjacency = c.bare.adjacency
  | .mode => c.mode = c.bare.mode
  | .noRepeat => c.noRepeat = c.bare.noRepeat
  | .stochastic => c.stochastic = c.bare.stochastic
  | .hiddenInfo => c.hiddenInfo = c.bare.hiddenInfo

theorem derives_writeField (c : Config) (f : Field) : Json.Derives .value (c.writeField f) := by
  cases f with
  | name => exact Json.derives_writeString c.name
  | players => exact Json.derives_writeNat c.players.toNat
  | sites => exact Json.derives_writeNat c.sites.toNat
  | adjacency =>
    refine Json.derives_writeList fun row hrow => ?_
    obtain ⟨sites, -, rfl⟩ := List.mem_map.mp hrow
    refine Json.derives_writeList fun site hsite => ?_
    obtain ⟨s, -, rfl⟩ := List.mem_map.mp hsite
    exact Json.derives_writeNat s.toNat
  | mode => exact Json.derives_writeString c.mode.spelling
  | noRepeat =>
    rw [writeField]
    cases c.noRepeat with
    | none => exact .word (by simp)
    | some kind => exact Json.derives_writeString kind.spelling
  | stochastic => exact Json.derives_writeBool c.stochastic
  | hiddenInfo => exact Json.derives_writeBool c.hiddenInfo

theorem derives_write (c : Config) : Json.Derives .value c.write := by
  refine Json.derives_writeObject fun m hm => ?_
  obtain ⟨f, -, rfl⟩ := List.mem_map.mp hm
  exact c.derives_writeField f

/-- Members that say what a configuration is, in any order. -/
structure Lists (c : Config) (entries : List Entry) : Prop where
  once : (entries.filterMap Entry.field?).Nodup
  leftOut : ∀ f, f ∉ entries.filterMap Entry.field? → c.HasDefault f
  fits : ∀ e ∈ entries, e.Fits

end Config

namespace Draft

variable {c : Config} {d : Draft} {f : Field} {e : Entry}

def record (c : Config) (d : Draft) : Field → Draft
  | .name => { d with name := some c.name }
  | .players => { d with players := some c.players }
  | .sites => { d with sites := some c.sites }
  | .adjacency => { d with adjacency := some c.adjacency }
  | .mode => { d with mode := some c.mode }
  | .noRepeat => { d with noRepeat := some c.noRepeat }
  | .stochastic => { d with stochastic := some c.stochastic }
  | .hiddenInfo => { d with hiddenInfo := some c.hiddenInfo }

def take (c : Config) (d : Draft) : Entry → Draft
  | .field f => d.record c f
  | .other _ _ => d

/-- The field of the draft comes out as the configuration has it. -/
def Settles (d : Draft) (c : Config) : Field → Prop
  | .name => d.name = some c.name
  | .players => d.players = some c.players
  | .sites => d.sites = some c.sites
  | .adjacency => d.adjacency.getD #[] = c.adjacency
  | .mode => d.mode.getD .alternating = c.mode
  | .noRepeat => d.noRepeat.getD none = c.noRepeat
  | .stochastic => d.stochastic.getD false = c.stochastic
  | .hiddenInfo => d.hiddenInfo.getD false = c.hiddenInfo

theorem has_record (c : Config) (d : Draft) {f g : Field} (h : g ≠ f) :
    (d.record c f).has g = d.has g := by
  cases f <;> cases g <;> first | rfl | exact absurd rfl h

theorem has_take {entries : List Entry} (h : ((e :: entries).filterMap Entry.field?).Nodup)
    (hlater : f ∈ entries.filterMap Entry.field?) (hnew : d.has f = false) :
    (d.take c e).has f = false := by
  cases e with
  | field g =>
    rw [List.filterMap_cons, Entry.field?, List.nodup_cons] at h
    have hne : f ≠ g := fun heq => h.1 (heq ▸ hlater)
    exact (has_record c d hne).trans hnew
  | other key value => exact hnew

theorem settles_record (c : Config) (d : Draft) (f : Field) : (d.record c f).Settles c f := by
  cases f <;> rfl

theorem Settles.record {g : Field} (h : d.Settles c g) (f : Field) :
    (d.record c f).Settles c g := by
  cases f <;> cases g <;> first | rfl | exact h

theorem settles_of_hasDefault (h : c.HasDefault f) : ({} : Draft).Settles c f := by
  cases f
  case name => cases h
  case players => cases h
  case sites => cases h
  all_goals exact Eq.symm h

/-- Taking members in settles the fields among them and unsettles none. -/
theorem settles_foldl_take {entries : List Entry} {d : Draft}
    (h : f ∈ entries.filterMap Entry.field? ∨ d.Settles c f) :
    (entries.foldl (take c) d).Settles c f := by
  induction entries generalizing d with
  | nil => exact h.resolve_left (by simp)
  | cons e entries ih =>
    apply ih
    cases e with
    | field g =>
      rcases h with hmem | hsettles
      · rw [List.filterMap_cons, Entry.field?, List.mem_cons] at hmem
        rcases hmem with rfl | hmem
        · exact .inr (settles_record c d f)
        · exact .inl hmem
      · exact .inr (hsettles.record g)
    | other key value => exact h

theorem toConfig_of_settles (h : ∀ f, d.Settles c f) : d.toConfig = .ok c := by
  have hname : d.name = some c.name := h .name
  have hplayers : d.players = some c.players := h .players
  have hsites : d.sites = some c.sites := h .sites
  have hadjacency : d.adjacency.getD #[] = c.adjacency := h .adjacency
  have hmode : d.mode.getD .alternating = c.mode := h .mode
  have hnoRepeat : d.noRepeat.getD none = c.noRepeat := h .noRepeat
  have hstochastic : d.stochastic.getD false = c.stochastic := h .stochastic
  have hhiddenInfo : d.hiddenInfo.getD false = c.hiddenInfo := h .hiddenInfo
  simp only [toConfig, require, hname, hplayers, hsites, hadjacency, hmode, hnoRepeat, hstochastic,
    hhiddenInfo, bind, Except.bind]

theorem toConfig_foldl_take {entries : List Entry} (h : c.Lists entries) :
    (entries.foldl (take c) {}).toConfig = .ok c := by
  refine toConfig_of_settles fun f => settles_foldl_take ?_
  by_cases hmem : f ∈ entries.filterMap Entry.field?
  · exact .inl hmem
  · exact .inr (settles_of_hasDefault (h.leftOut f hmem))

theorem readsBack_count (n : UInt64) : Json.ReadsBack readCount n (Json.writeNat n.toNat) := by
  have hread := (Json.readsBack_natural n.toNat_lt (Nat.le_refl _) "usize").map UInt64.ofNat
  rw [UInt64.ofNat_toNat] at hread
  exact hread

theorem readsBack_site (s : Site) : Json.ReadsBack readSite s (Json.writeNat s.toNat) := by
  have hread := (Json.readsBack_natural s.toNat_lt (by decide) "u32").map Site.ofNat
  rw [Site.ofNat_toNat] at hread
  exact hread

theorem readsBack_adjacency {fuel : Nat} (h : (c.writeField .adjacency).length ≤ fuel) :
    Json.ReadsBack (Json.list fuel (Json.list fuel readSite)) c.adjacency.toList
      (c.writeField .adjacency) := by
  rw [Config.writeField, Json.length_writeList] at h
  have hrows := Json.length_le_length_separated (c.adjacency.toList.map fun row =>
    Json.writeList (row.map fun site => Json.writeNat site.toNat))
  rw [List.length_map] at hrows
  refine Json.readsBack_list (fun row hrow => ?_) (by omega)
  have hrow := Json.length_le_separated (List.mem_map_of_mem (f := fun row =>
    Json.writeList (row.map fun site => Json.writeNat site.toNat)) hrow)
  have hsites := Json.length_le_length_separated (row.map fun site => Json.writeNat site.toNat)
  rw [Json.length_writeList] at hrow
  rw [List.length_map] at hsites
  exact Json.readsBack_list (fun site _ => readsBack_site site) (by omega)

theorem readsBack_field (c : Config) (d : Draft) {f : Field} {fuel : Nat}
    (h : (c.writeField f).length ≤ fuel) :
    Json.ReadsBack (d.readField fuel f) (d.record c f) (c.writeField f) := by
  cases f with
  | name => exact (Json.readsBack_text _ c.name).map fun name => { d with name := some name }
  | players => exact (readsBack_count c.players).map fun n => { d with players := some n }
  | sites => exact (readsBack_count c.sites).map fun n => { d with sites := some n }
  | adjacency =>
    exact (readsBack_adjacency h).map fun rows => { d with adjacency := some rows.toArray }
  | mode =>
    exact (Json.readsBack_choice c.mode.ofSpelling?_spelling).map fun mode =>
      { d with mode := some mode }
  | noRepeat =>
    rw [Config.writeField, record]
    cases c.noRepeat with
    | none =>
      exact (Json.readsBack_optional_none _).map fun noRepeat =>
        { d with noRepeat := some noRepeat }
    | some kind =>
      have hkind := Json.readsBack_choice kind.ofSpelling?_spelling
      have hsome := Json.readsBack_optional_some hkind fun rest hcons =>
        absurd (List.cons.inj hcons).1 (by decide)
      exact hsome.map fun noRepeat => { d with noRepeat := some noRepeat }
  | stochastic =>
    exact (Json.readsBack_boolean c.stochastic).map fun x => { d with stochastic := some x }
  | hiddenInfo =>
    exact (Json.readsBack_boolean c.hiddenInfo).map fun x => { d with hiddenInfo := some x }

end Draft

end LegalMoves
