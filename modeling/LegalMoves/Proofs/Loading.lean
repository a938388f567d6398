import LegalMoves.Proofs.Drafts
import LegalMoves.Proofs.Validation

set_option autoImplicit false

namespace LegalMoves

theorem Field.ofKey?_eq_none {key : String} (h : ∀ f : Field, f.key ≠ key) :
    Field.ofKey? key = none := by
  rw [Field.ofKey?, List.find?_eq_none]
  intro f _
  simpa using h f

namespace Config

open Json

variable {c : Config} {d : Draft} {fuel : Nat} {spelling b₂ b₃ cs : List Char}

theorem readMember_field {f : Field} (hnew : d.has f = false)
    (hfuel : (c.writeField f).length ≤ fuel) (hspells : Spells f.key.toList spelling)
    (hafterKey : IsBlanks b₂) (hbefore : IsBlanks b₃) (hcs : EndsNumber cs) :
    readMember fuel d (spelling ++ '"' :: (b₂ ++ ':' :: (b₃ ++ c.writeField f ++ cs))) =
      .ok (d.record c f, cs) := by
  have hread := (Draft.readsBack_field c d hfuel).read b₃ cs hbefore hcs
  rw [readMember, string_spells hspells]
  simp only [bind, Except.bind, Field.ofKey?_key, hnew, Bool.false_eq_true, if_false,
    mark_append hafterKey, mark_cons ':' rfl, hread]

theorem readMember_other {key : String} {value : List Char} (hkey : ∀ f : Field, f.key ≠ key)
    (hvalue : Derives .value value) (hfuel : 2 * value.length ≤ fuel)
    (hspells : Spells key.toList spelling) (hafterKey : IsBlanks b₂) (hbefore : IsBlanks b₃)
    (hcs : EndsNumber cs) :
    readMember fuel d (spelling ++ '"' :: (b₂ ++ ':' :: (b₃ ++ value ++ cs))) = .ok (d, cs) := by
  have hskip := skip_append hbefore hvalue hfuel hcs
  rw [readMember, string_spells hspells]
  simp only [bind, Except.bind, Field.ofKey?_eq_none hkey, mark_append hafterKey,
    mark_cons ':' rfl, hskip]

theorem readMembers_append {b : List Char} (h : IsBlanks b) (count : Nat) (isFirst : Bool)
    (d : Draft) (cs : List Char) :
    readMembers fuel count isFirst d (b ++ cs) = readMembers fuel count isFirst d cs := by
  cases count with
  | zero => rfl
  | succ count => rw [readMembers, readMembers, nextKey_append h]

theorem readMembers_first {m : String × List Char} {t : List Char} (h : WritesMember m t)
    (count : Nat) (d : Draft) (cs : List Char) :
    readMembers fuel count true d (t ++ cs) =
      readMembers fuel count false d (',' :: (t ++ cs)) := by
  cases h with
  | mk hbeforeKey =>
    cases count with
    | zero => rfl
    | succ count =>
      simp only [List.append_assoc, List.cons_append, readMembers, nextKey_first hbeforeKey,
        nextKey_comma hbeforeKey]

theorem readMember_entry {e : Entry} (hnew : ∀ f, e.field? = some f → d.has f = false)
    (hfits : e.Fits) (hfuel : 2 * (e.member c).2.length ≤ fuel)
    (hspells : Spells (e.member c).1.toList spelling) (hafterKey : IsBlanks b₂)
    (hbefore : IsBlanks b₃) (hcs : EndsNumber cs) :
    readMember fuel d (spelling ++ '"' :: (b₂ ++ ':' :: (b₃ ++ (e.member c).2 ++ cs))) =
      .ok (d.take c e, cs) := by
  cases e with
  | field f =>
    have hvalue : 2 * (c.writeField f).length ≤ fuel := hfuel
    exact readMember_field (hnew f rfl) (by omega) hspells hafterKey hbefore hcs
  | other key value => exact readMember_other hfits.1 hfits.2 hfuel hspells hafterKey hbefore hcs

theorem readMembers_entry {e : Entry} {t : List Char} (ht : WritesMember (e.member c) t)
    (hnew : ∀ f, e.field? = some f → d.has f = false) (hfits : e.Fits)
    (hfuel : 2 * (e.member c).2.length ≤ fuel) (hcs : EndsNumber cs) (count : Nat) :
    readMembers fuel (count + 1) false d (',' :: (t ++ cs)) =
      readMembers fuel count false (d.take c e) cs := by
  obtain ⟨hbeforeKey, hspells, hafterKey, hbefore, hafter⟩ := ht
  have hread := readMember_entry hnew hfits hfuel hspells hafterKey hbefore (hcs.blanks hafter)
  simp only [List.append_assoc, List.cons_append] at hread ⊢
  rw [readMembers, nextKey_comma hbeforeKey]
  simp only [bind, Except.bind, if_true, hread, readMembers_append hafter]

theorem readMembers_entries {entries : List Entry} {texts : List (List Char)}
    (htexts : List.Forall₂ (fun e t => WritesMember (Entry.member c e) t) entries texts)
    (honce : (entries.filterMap Entry.field?).Nodup)
    (hnew : ∀ f ∈ entries.filterMap Entry.field?, d.has f = false)
    (hfits : ∀ e ∈ entries, e.Fits) (hfuel : ∀ e ∈ entries, 2 * (e.member c).2.length ≤ fuel)
    {count : Nat} (hcount : texts.length < count) (cs : List Char) :
    readMembers fuel count false d (texts.flatMap (',' :: ·) ++ '\x7d' :: cs) =
      (entries.foldl (Draft.take c) d).toConfig.map (·, cs) := by
  induction htexts generalizing d count with
  | nil =>
    cases count with
    | zero => cases hcount
    | succ count =>
      rw [List.flatMap_nil, List.nil_append, readMembers, nextKey_closing, List.foldl_nil]
      simp only [bind, Except.bind, Bool.false_eq_true, if_false]
      cases d.toConfig <;> rfl
  | @cons e t entries texts ht _ ih =>
    cases count with
    | zero => cases hcount
    | succ count =>
      have hnewHere : ∀ f, e.field? = some f → d.has f = false := fun f hf =>
        hnew f (List.mem_filterMap.mpr ⟨e, by simp, hf⟩)
      have hentry := readMembers_entry ht hnewHere (hfits e (by simp)) (hfuel e (by simp))
        (endsNumber_behind .object texts cs) count
      rw [List.flatMap_cons, List.cons_append, List.cons_append, List.append_assoc,
        List.foldl_cons]
      -- What is carried along is that the fields still to come are not in the draft.
      have hothers := (List.sublist_cons_self e entries).filterMap Entry.field?
      refine hentry.trans (ih (honce.sublist hothers) ?_ ?_ ?_ (Nat.lt_of_succ_lt_succ hcount))
      · exact fun f hf => Draft.has_take honce hf (hnew f (hothers.subset hf))
      · exact fun e' he' => hfits e' (by simp [he'])
      · exact fun e' he' => hfuel e' (by simp [he'])

theorem readMembers_lists {entries : List Entry} (h : c.Lists entries) {texts : List (List Char)}
    (htexts : List.Forall₂ WritesMember (entries.map (Entry.member c)) texts)
    (hfuel : 2 * ((separated texts).length + 2) ≤ fuel) (cs : List Char) :
    readMembers fuel (fuel + 1) true {} (separated texts ++ '\x7d' :: cs) = .ok (c, cs) := by
  have hvalues := length_le_of_writesMember htexts
  have hcount := length_le_length_separated texts
  have hnew : ∀ f ∈ entries.filterMap Entry.field?, ({} : Draft).has f = false := fun f _ => by
    cases f <;> rfl
  have hsizes : ∀ e ∈ entries, 2 * (e.member c).2.length ≤ fuel := fun e he => by
    have hvalue := hvalues _ (List.mem_map_of_mem he)
    omega
  have hfew : texts.length < fuel + 1 := by omega
  rw [List.forall₂_map_left_iff] at htexts
  have hentries := readMembers_entries htexts h.once hnew h.fits hsizes hfew cs
  cases htexts with
  -- An empty object lists no configuration, since a name cannot be left out.
  | nil => exact absurd (h.leftOut .name (by simp)) id
  | @cons e t entries texts ht _ =>
    rw [separated_cons, List.append_assoc, readMembers_first ht]
    rw [List.flatMap_cons, List.cons_append, List.cons_append, List.append_assoc] at hentries
    rw [hentries, Draft.toConfig_foldl_take h]
    rfl

/-- An object that lists a configuration is read as this configuration, and nothing else is in the
way: neither the order of its members, nor what is left out, nor what is passed over. -/
theorem parse_lists {entries : List Entry} (h : c.Lists entries) {text : List Char}
    (htext : WritesObject (entries.map (Entry.member c)) text) : parse text = .ok c := by
  cases htext with
  | @mk b₁ b₂ texts hbefore heach hafter =>
    have hfront : skipBlanks (b₁ ++ '\x7b' :: separated texts ++ '\x7d' :: b₂) =
        '\x7b' :: (separated texts ++ '\x7d' :: b₂) := skipBlanks_before hbefore rfl _ _
    have hend : skipBlanks b₂ = [] := by
      rw [← List.append_nil b₂, skipBlanks_append hafter]
      rfl
    have hfuel : 2 * ((separated texts).length + 2) ≤
        2 * (b₁ ++ '\x7b' :: separated texts ++ '\x7d' :: b₂).length := by
      simp only [List.length_append, List.length_cons]
      omega
    have hread := readMembers_lists h heach hfuel b₂
    simp only [parse, read, hfront, hread, bind, Except.bind, hend, List.isEmpty_nil, if_true]

theorem lists_all (c : Config) : c.Lists (Field.all.map .field) where
  once := by decide
  leftOut f hf := absurd (by cases f <;> decide) hf
  fits e he := by
    obtain ⟨f, -, rfl⟩ := List.mem_map.mp he
    trivial

theorem parse_write (c : Config) : parse c.write = .ok c := by
  refine parse_lists (lists_all c) ?_
  rw [List.map_map]
  exact writesObject_writeObject _

end Config

namespace Game

variable {c : Config} {source : String}

theorem ofJson_of_parse (h : Config.parse source.toList = .ok c) :
    ofJson source = (ofConfig c).mapError .invalid := by
  rw [ofJson, h]

/-- Whatever object lists a configuration without a fault, its text is read as a game with this very
configuration. -/
theorem ofJson_lists {entries : List Entry} (hc : c.WellFormed) (h : c.Lists entries)
    (hsource : Json.WritesObject (entries.map (Entry.member c)) source.toList) :
    ∃ g, ofJson source = .ok g ∧ g.config = c := by
  obtain ⟨g, hg⟩ := exists_ofConfig_eq_ok_iff.mpr hc
  refine ⟨g, ?_, ofConfig_eq_ok_iff.mp hg⟩
  rw [ofJson_of_parse (Config.parse_lists h hsource), hg]
  rfl

/-- A simultaneous game with its fields in an order of their own and without those that have their
default values, and with two members in between that are no fields: a number that is too large for a
float, and an object in a list. -/
def annotated : Config × List Entry :=
  ({ name := "a\"b", players := 2, sites := 3, mode := .simultaneous },
    [.field .mode, .other "rating" ['-', '1', 'e', '9', '9', '9'], .field .sites,
      .other "tags" ['[', ' ', '\x7b', '"', 'x', '"', ':', 'n', 'u', 'l', 'l', '\x7d', ']'],
      .field .players, .field .name])

theorem derives_annotated :
    Json.Derives .value ['-', '1', 'e', '9', '9', '9'] ∧
      Json.Derives .value
        ['[', ' ', '\x7b', '"', 'x', '"', ':', 'n', 'u', 'l', 'l', '\x7d', ']'] := by
  have hwhole : Json.IsWhole ['1'] := .digits (by decide) ⟨by simp, by simp⟩
  have hexponent : Json.IsExponent ('e' :: [] ++ ['9', '9', '9']) :=
    .present (.inl rfl) (by decide) ⟨by simp, by simp⟩
  have hnumber : Json.IsNumber (['-'] ++ ['1'] ++ [] ++ ('e' :: [] ++ ['9', '9', '9'])) :=
    .mk (by decide) hwhole .absent hexponent
  have hkey : Json.IsQuotable ['x'] := .plain (by decide) (by decide) (by decide) .nil
  have hmember : Json.Derives (.entries .object) ['"', 'x', '"', ':', 'n', 'u', 'l', 'l'] :=
    .last (.member Json.isBlanks_nil hkey Json.isBlanks_nil Json.isBlanks_nil
      (.word (.head _)) Json.isBlanks_nil)
  have hblank : Json.IsBlanks [' '] := by simp [Json.IsBlanks, Json.isBlank]
  have hitem : Json.Derives (.entries .list)
      [' ', '\x7b', '"', 'x', '"', ':', 'n', 'u', 'l', 'l', '\x7d'] :=
    .last (.item hblank (.nested hmember) Json.isBlanks_nil)
  exact ⟨.number hnumber, .nested hitem⟩

theorem lists_annotated : annotated.1.Lists annotated.2 where
  once := by decide
  leftOut f hf := by
    cases f with
    | adjacency | noRepeat | stochastic | hiddenInfo => rfl
    | name | players | sites | mode => exact absurd (by decide) hf
  fits := by
    have hrating : ∀ f : Field, f.key ≠ "rating" := fun f => by cases f <;> decide
    have htags : ∀ f : Field, f.key ≠ "tags" := fun f => by cases f <;> decide
    simp only [annotated, List.forall_mem_cons, Entry.Fits, true_and]
    exact ⟨⟨hrating, derives_annotated.1⟩, ⟨htags, derives_annotated.2⟩, by simp⟩

theorem ofJson_lists_annotated :
    annotated.1.WellFormed ∧ annotated.1.Lists annotated.2 ∧
      ∃ g, ofJson (String.ofList (Json.writeObject (annotated.2.map (Entry.member annotated.1)))) =
          .ok g ∧
        g.config = annotated.1 := by
  have hwellFormed : annotated.1.WellFormed := Config.fault?_eq_none_iff.mp (by decide)
  refine ⟨hwellFormed, lists_annotated, ofJson_lists hwellFormed lists_annotated ?_⟩
  rw [String.toList_ofList]
  exact Json.writesObject_writeObject _

/-- What is written for a configuration is JSON, and read back it comes to the same as if it had not
been written: it is the same game, or is refused for the same fault, and it can always be read. -/
theorem ofJson_toJson (c : Config) :
    Json.Derives .value c.toJson.toList ∧
      ofJson c.toJson = (ofConfig c).mapError .invalid ∧
      ((∃ g, ofJson c.toJson = .ok g ∧ g.config = c) ↔ c.WellFormed) ∧
      (∀ fault, ofJson c.toJson = .error (.invalid fault) ↔ c.FirstFault fault) ∧
      ∀ cause, ofJson c.toJson ≠ .error (.unreadable cause) := by
  have htext : c.toJson.toList = c.write := String.toList_ofList
  have hsame : ofJson c.toJson = (ofConfig c).mapError .invalid :=
    ofJson_of_parse (htext ▸ c.parse_write)
  refine ⟨htext ▸ c.derives_write, hsame, ?_⟩
  rw [hsame]
  cases hg : ofConfig c with
  | ok g =>
    have hconfig := ofConfig_eq_ok_iff_wellFormed.mp hg
    refine ⟨iff_of_true ⟨g, rfl, hconfig.2⟩ hconfig.1, fun fault => ?_, fun cause => ?_⟩
    · rw [← ofConfig_eq_error_iff_firstFault, hg]
      simp [Except.mapError]
    · simp [Except.mapError]
  | error fault =>
    refine ⟨?_, fun fault' => ?_, fun cause => ?_⟩
    · rw [← exists_ofConfig_eq_ok_iff, hg]
      simp [Except.mapError]
    · rw [← ofConfig_eq_error_iff_firstFault, hg]
      simp [Except.mapError]
    · simp [Except.mapError]

end Game
end LegalMoves
