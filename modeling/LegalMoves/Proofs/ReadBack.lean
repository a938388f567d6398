import LegalMoves.Json.Decode
import LegalMoves.Lists
import LegalMoves.Proofs.Grammar
import Mathlib.Data.List.Forall2

set_option autoImplicit false

/-!
Written values are read back. Every reader of values drops the blanks in front of a value, and stops
right behind it if the text there does not carry on with a number. Objects have more texts than the
one that is written: their keys have other spellings, and blanks may stand between their parts.
-/
namespace LegalMoves.Json

/-- A text that a reader takes for a value, in any surroundings. It does not look like the end of a
list, so it can be an item of one. -/
structure ReadsBack {α : Type} (item : Reader α) (x : α) (t : List Char) : Prop where
  starts : ∃ c rest, t = c :: rest ∧ isBlank c = false ∧ c ≠ ']'
  read : ∀ b cs, IsBlanks b → EndsNumber cs → item (b ++ t ++ cs) = .ok (x, cs)

section Separated

variable {t : List Char} {ts : List (List Char)}

theorem separated_cons (t : List Char) (ts : List (List Char)) :
    separated (t :: ts) = t ++ ts.flatMap (',' :: ·) := by
  induction ts generalizing t with
  | nil => simp [separated]
  | cons u us ih =>
    rw [separated, List.intercalate_cons_cons, ← separated, ih u]
    simp

theorem length_le_separated (h : t ∈ ts) : t.length ≤ (separated ts).length := by
  cases ts with
  | nil => cases h
  | cons u us =>
    rw [separated_cons, List.length_append]
    rcases List.mem_cons.mp h with rfl | h
    · omega
    · obtain ⟨before, after, rfl⟩ := List.append_of_mem h
      simp only [List.flatMap_append, List.flatMap_cons, List.length_append, List.length_cons]
      omega

theorem length_le_length_separated (ts : List (List Char)) :
    ts.length ≤ (separated ts).length + 1 := by
  cases ts with
  | nil => exact Nat.zero_le _
  | cons t ts =>
    have hcommas := List.length_le_length_flatMap_cons ',' ts
    rw [separated_cons, List.length_append, List.length_cons]
    omega

theorem length_writeList (ts : List (List Char)) :
    (writeList ts).length = (separated ts).length + 2 := by
  simp only [writeList, List.length_append, List.length_cons, List.length_nil]

end Separated

section Readers

variable {α : Type} {c : Char} {t b cs : List Char}

theorem skipBlanks_before (h : IsBlanks b) (hc : isBlank c = false) (t cs : List Char) :
    skipBlanks (b ++ c :: t ++ cs) = c :: (t ++ cs) := by
  rw [List.append_assoc, skipBlanks_append h, List.cons_append, skipBlanks_cons_of_not hc]

theorem ReadsBack.map {β : Type} {item : Reader α} {x : α} (h : ReadsBack item x t) (f : α → β) :
    ReadsBack (fun cs => do let (x, cs) ← item cs; .ok (f x, cs)) (f x) t := by
  refine ⟨h.starts, fun b cs hb hcs => ?_⟩
  simp only [h.read b cs hb hcs, bind, Except.bind]

theorem readsBack_natural {n limit : Nat} (h : n < limit) (hlimit : limit ≤ UInt64.size)
    (wanted : String) : ReadsBack (natural limit wanted) n (writeNat n) := by
  obtain ⟨c, rest, hcons, hdigit⟩ := (isDigits_writeNat n).exists_cons
  have hstart : c = '-' ∨ c.isDigit = true := .inr hdigit
  have hblank := isBlank_of_startsNumber hstart
  refine ⟨⟨c, rest, hcons, hblank, ne_of_startsNumber hstart ']' (by simp)⟩, ?_⟩
  intro b cs hb hcs
  have hnumber := number_writeNat (Nat.lt_of_lt_of_le h hlimit) hcs
  have hfits : (0 : Int) ≤ n ∧ (n : Int) < limit := by omega
  have hsome := isSome_digit?_of_startsNumber hstart
  rw [hcons] at hnumber ⊢
  rw [List.cons_append] at hnumber
  simp only [natural, skipBlanks_before hb hblank, if_pos hsome, hnumber, bind, Except.bind,
    if_pos hfits, Int.toNat_natCast]

theorem skipBlanks_writeString (h : IsBlanks b) (s : String) (cs : List Char) :
    skipBlanks (b ++ writeString s ++ cs) = '"' :: (s.toList.flatMap writtenChar ++ '"' :: cs) := by
  rw [writeString, List.cons_append, skipBlanks_before h rfl]
  simp

theorem readsBack_text (wanted s : String) : ReadsBack (text wanted) s (writeString s) := by
  refine ⟨⟨'"', _, rfl, rfl, by decide⟩, ?_⟩
  intro b cs hb _
  have hstring := string_spells (spells_written s.toList) cs
  simp only [text, skipBlanks_writeString hb, hstring]

theorem readsBack_boolean (x : Bool) : ReadsBack boolean x (writeBool x) := by
  cases x with
  | true =>
    refine ⟨⟨'t', _, rfl, rfl, by decide⟩, ?_⟩
    intro b cs hb _
    have hfront : skipBlanks (b ++ writeBool true ++ cs) = 't' :: (['r', 'u', 'e'] ++ cs) :=
      skipBlanks_before hb rfl _ cs
    simp only [boolean, hfront, literal_append, bind, Except.bind]
  | false =>
    refine ⟨⟨'f', _, rfl, rfl, by decide⟩, ?_⟩
    intro b cs hb _
    have hfront : skipBlanks (b ++ writeBool false ++ cs) = 'f' :: (['a', 'l', 's', 'e'] ++ cs) :=
      skipBlanks_before hb rfl _ cs
    simp only [boolean, hfront, literal_append, bind, Except.bind]

theorem readsBack_choice {spelling : α → String} {choices : List α} {x : α}
    (h : choices.find? (fun choice => spelling choice == spelling x) = some x) :
    ReadsBack (choice spelling choices) x (writeString (spelling x)) := by
  refine ⟨(readsBack_text "" (spelling x)).starts, ?_⟩
  intro b cs hb _
  have hstring := string_spells (spells_written (spelling x).toList) cs
  simp only [choice, skipBlanks_writeString hb, hstring, choiceOf, h, bind, Except.bind]

theorem readsBack_optional_none (item : Reader α) : ReadsBack (optional item) none writeNull := by
  refine ⟨⟨'n', _, rfl, rfl, by decide⟩, ?_⟩
  intro b cs hb _
  have hfront : skipBlanks (b ++ writeNull ++ cs) = 'n' :: (['u', 'l', 'l'] ++ cs) :=
    skipBlanks_before hb rfl _ cs
  simp only [optional, hfront, literal_append, bind, Except.bind]

theorem readsBack_optional_some {item : Reader α} {x : α} (h : ReadsBack item x t)
    (hstart : ∀ rest, t ≠ 'n' :: rest) : ReadsBack (optional item) (some x) t := by
  refine ⟨h.starts, ?_⟩
  intro b cs hb hcs
  obtain ⟨c, rest, rfl, hc, -⟩ := h.starts
  have hitem := h.read [] cs isBlanks_nil hcs
  rw [List.nil_append, List.cons_append] at hitem
  rw [optional, skipBlanks_before hb hc]
  split
  · rename_i heq
    obtain ⟨rfl, -⟩ := List.cons.inj heq
    exact absurd rfl (hstart rest)
  · simp only [hitem, bind, Except.bind]

section Lists

variable {item : Reader α} {write : α → List Char} {x : α} {xs : List α}

theorem nextItem_comma (h : ReadsBack item x t) (cs : List Char) :
    nextItem false (',' :: (t ++ cs)) = .ok (true, t ++ cs) := by
  obtain ⟨c, rest, rfl, hblank, hc⟩ := h.starts
  rw [nextItem, skipBlanks_cons_of_not rfl]
  simp [skipBlanks_cons_of_not hblank, hc]

theorem nextItem_first (h : ReadsBack item x t) (cs : List Char) :
    nextItem true (t ++ cs) = .ok (true, t ++ cs) := by
  obtain ⟨c, rest, rfl, hblank, hc⟩ := h.starts
  rw [nextItem, List.cons_append, skipBlanks_cons_of_not hblank]
  simp [hc]

theorem items_first (h : ReadsBack item x t) (fuel : Nat) (cs : List Char) :
    items item fuel true (t ++ cs) = items item fuel false (',' :: (t ++ cs)) := by
  cases fuel with
  | zero => rfl
  | succ fuel => rw [items, items, nextItem_first h, nextItem_comma h]

theorem nextItem_closing (isFirst : Bool) (cs : List Char) :
    nextItem isFirst (']' :: cs) = .ok (false, cs) := by
  rw [nextItem, skipBlanks_cons_of_not rfl]
  simp

theorem endsNumber_behind (bracket : Bracket) (ts : List (List Char)) (cs : List Char) :
    EndsNumber (ts.flatMap (',' :: ·) ++ bracket.closing :: cs) := by
  cases ts with
  | nil => exact endsNumber_cons (by cases bracket <;> decide) cs
  | cons t ts => exact endsNumber_cons (by decide) _

theorem items_readsBack (h : ∀ x ∈ xs, ReadsBack item x (write x)) {fuel : Nat}
    (hfuel : xs.length < fuel) (cs : List Char) :
    items item fuel false ((xs.map write).flatMap (',' :: ·) ++ ']' :: cs) = .ok (xs, cs) := by
  induction xs generalizing fuel with
  | nil =>
    cases fuel with
    | zero => cases hfuel
    | succ fuel => simp [items, nextItem_closing, bind, Except.bind]
  | cons x xs ih =>
    cases fuel with
    | zero => cases hfuel
    | succ fuel =>
      have hx := h x (by simp)
      have hends : EndsNumber ((xs.map write).flatMap (',' :: ·) ++ ']' :: cs) :=
        endsNumber_behind .list (xs.map write) cs
      have hread := hx.read [] _ isBlanks_nil hends
      have hothers := ih (fun y hy => h y (by simp [hy])) (Nat.lt_of_succ_lt_succ hfuel)
      rw [List.nil_append] at hread
      rw [List.map_cons, List.flatMap_cons, List.cons_append, List.cons_append, List.append_assoc,
        items, nextItem_comma hx]
      simp [hread, hothers, bind, Except.bind]

theorem readsBack_list (h : ∀ x ∈ xs, ReadsBack item x (write x)) {fuel : Nat}
    (hfuel : xs.length ≤ fuel) : ReadsBack (list fuel item) xs (writeList (xs.map write)) := by
  refine ⟨⟨'[', _, rfl, rfl, by decide⟩, ?_⟩
  intro b cs hb _
  have hfront : skipBlanks (b ++ writeList (xs.map write) ++ cs) =
      '[' :: (separated (xs.map write) ++ ']' :: cs) := by
    rw [writeList, List.cons_append, skipBlanks_before hb rfl]
    simp
  simp only [list, hfront]
  cases xs with
  | nil => simp [separated, items, nextItem_closing, bind, Except.bind]
  | cons x xs =>
    have hbehind := items_readsBack h (Nat.lt_succ_of_le hfuel) cs
    rw [List.map_cons, List.flatMap_cons, List.cons_append, List.cons_append,
      List.append_assoc] at hbehind
    rw [List.map_cons, separated_cons, List.append_assoc, items_first (h x (by simp))]
    exact hbehind

end Lists
end Readers

/-- A key with its value in writing, and a member of an object that says so. -/
inductive WritesMember : String × List Char → List Char → Prop where
  | mk {m : String × List Char} {b₁ spelling b₂ b₃ b₄ : List Char} (beforeKey : IsBlanks b₁)
      (spells : Spells m.1.toList spelling) (afterKey : IsBlanks b₂) (before : IsBlanks b₃)
      (after : IsBlanks b₄) :
      WritesMember m (b₁ ++ '"' :: spelling ++ '"' :: b₂ ++ ':' :: b₃ ++ m.2 ++ b₄)

inductive WritesObject (members : List (String × List Char)) : List Char → Prop where
  | mk {b₁ b₂ : List Char} {texts : List (List Char)} (before : IsBlanks b₁)
      (each : List.Forall₂ WritesMember members texts) (after : IsBlanks b₂) :
      WritesObject members (b₁ ++ '\x7b' :: separated texts ++ '\x7d' :: b₂)

section Objects

variable {members : List (String × List Char)} {b t cs : List Char} {texts : List (List Char)}

theorem writesMember_writeMember (m : String × List Char) :
    WritesMember m (writeMember m.1 m.2) := by
  have hplain : WritesMember m _ :=
    .mk isBlanks_nil (spells_written m.1.toList) isBlanks_nil isBlanks_nil isBlanks_nil
  simpa [writeMember, writeString] using hplain

theorem writesObject_writeObject (members : List (String × List Char)) :
    WritesObject members (writeObject members) := by
  have heach : List.Forall₂ WritesMember members (members.map fun m => writeMember m.1 m.2) := by
    rw [List.forall₂_map_right_iff]
    exact List.forall₂_same.mpr fun m _ => writesMember_writeMember m
  exact .mk isBlanks_nil heach isBlanks_nil

theorem WritesMember.length_le {m : String × List Char} (h : WritesMember m t) :
    m.2.length ≤ t.length := by
  cases h
  simp only [List.length_append, List.length_cons]
  omega

theorem length_le_of_writesMember (h : List.Forall₂ WritesMember members texts) :
    ∀ m ∈ members, m.2.length ≤ (separated texts).length := by
  intro m hm
  obtain ⟨i, hi, rfl⟩ := List.getElem_of_mem hm
  have hlength := h.length_eq
  have hmember := h.get hi (hlength ▸ hi)
  exact Nat.le_trans hmember.length_le (length_le_separated (List.getElem_mem _))

theorem nextKey_append (h : IsBlanks b) (isFirst : Bool) (cs : List Char) :
    nextKey isFirst (b ++ cs) = nextKey isFirst cs := by
  rw [nextKey, nextKey, skipBlanks_append h]

theorem nextKey_first (h : IsBlanks b) (cs : List Char) :
    nextKey true (b ++ '"' :: cs) = .ok (true, cs) := by
  rw [nextKey_append h, nextKey, skipBlanks_cons_of_not rfl]
  simp

theorem nextKey_comma (h : IsBlanks b) (cs : List Char) :
    nextKey false (',' :: (b ++ '"' :: cs)) = .ok (true, cs) := by
  rw [nextKey, skipBlanks_cons_of_not rfl]
  simp [mark_append h, mark_cons '"' rfl, bind, Except.bind]

theorem nextKey_closing (isFirst : Bool) (cs : List Char) :
    nextKey isFirst ('\x7d' :: cs) = .ok (false, cs) := by
  rw [nextKey, skipBlanks_cons_of_not rfl]
  simp

end Objects

section Grammar

variable {bracket : Bracket} {ts : List (List Char)}

theorem derives_separated {t : List Char} (h : ∀ u ∈ t :: ts, Derives (.entry bracket) u) :
    Derives (.entries bracket) (separated (t :: ts)) := by
  induction ts generalizing t with
  | nil =>
    have ht := h t (by simp)
    simpa [separated] using Derives.last ht
  | cons u us ih =>
    have hothers := ih fun v hv => h v (List.mem_cons_of_mem t hv)
    have hmore := Derives.more (h t (by simp)) hothers
    rw [separated, List.intercalate_cons_cons, ← separated]
    simpa using hmore

theorem derives_bracketed (bracket : Bracket) (h : ∀ t ∈ ts, Derives (.entry bracket) t) :
    Derives .value (bracket.opening :: separated ts ++ [bracket.closing]) := by
  cases ts with
  | nil => exact .empty bracket isBlanks_nil
  | cons t ts => exact .nested (derives_separated h)

theorem derives_writeNat (n : Nat) : Derives .value (writeNat n) := .number (isNumber_writeNat n)

theorem derives_writeString (s : String) : Derives .value (writeString s) :=
  .string (spells_written s.toList).isQuotable

theorem derives_writeBool (x : Bool) : Derives .value (writeBool x) := by
  cases x <;> exact .word (by simp)

theorem derives_writeList (h : ∀ t ∈ ts, Derives .value t) : Derives .value (writeList ts) := by
  refine derives_bracketed .list fun t ht => ?_
  simpa using Derives.item isBlanks_nil (h t ht) isBlanks_nil

theorem derives_writeObject {members : List (String × List Char)}
    (h : ∀ m ∈ members, Derives .value m.2) : Derives .value (writeObject members) := by
  refine derives_bracketed .object fun t ht => ?_
  obtain ⟨m, hm, rfl⟩ := List.mem_map.mp ht
  have hmember := Derives.member isBlanks_nil (spells_written m.1.toList).isQuotable isBlanks_nil
    isBlanks_nil (h m hm) isBlanks_nil
  simpa [writeMember, writeString] using hmember

end Grammar
end LegalMoves.Json
