import LegalMoves.Json.Scan
import LegalMoves.Json.Write

set_option autoImplicit false

namespace LegalMoves.Json

def escapeLetters : List (Char × Char) :=
  [('"', '"'), ('\\', '\\'), ('/', '/'), ('b', '\x08'), ('f', '\x0c'), ('n', '\n'), ('r', '\r'),
    ('t', '\t')]

/-- Four hexadecimal digits and the number that they write. -/
inductive WritesUnit : List Char → Nat → Prop where
  | mk {c₁ c₂ c₃ c₄ : Char} {d₁ d₂ d₃ d₄ : Nat} (h₁ : hexDigit? c₁ = some d₁)
      (h₂ : hexDigit? c₂ = some d₂) (h₃ : hexDigit? c₃ = some d₃) (h₄ : hexDigit? c₄ = some d₄) :
      WritesUnit [c₁, c₂, c₃, c₄] (((d₁ * 16 + d₂) * 16 + d₃) * 16 + d₄)

/-- What stands behind the backslash of an escape, and the character that it writes. A numbered
escape writes a character of its own, or with a second one the two halves of a surrogate pair. -/
inductive WritesEscape : List Char → Char → Prop where
  | letter {letter c : Char} (mem : (letter, c) ∈ escapeLetters) : WritesEscape [letter] c
  | unit {c : Char} {digits : List Char} (writes : WritesUnit digits c.toNat) :
      WritesEscape ('u' :: digits) c
  | pair {c : Char} {highDigits lowDigits : List Char} {high low : Nat}
      (writesHigh : WritesUnit highDigits high) (writesLow : WritesUnit lowDigits low)
      (isHigh : isHighSurrogate high = true) (isLow : isLowSurrogate low = true)
      (char : c.toNat = 0x10000 + (high - 0xd800) * 0x400 + (low - 0xdc00)) :
      WritesEscape ('u' :: highDigits ++ '\\' :: 'u' :: lowDigits) c

inductive Spells : List Char → List Char → Prop where
  | nil : Spells [] []
  | plain {c : Char} {text spelling : List Char} (quote : c ≠ '"') (slash : c ≠ '\\')
      (printable : 0x20 ≤ c.toNat) (rest : Spells text spelling) :
      Spells (c :: text) (c :: spelling)
  | escape {used : List Char} {c : Char} {text spelling : List Char} (writes : WritesEscape used c)
      (rest : Spells text spelling) : Spells (c :: text) ('\\' :: used ++ spelling)

/-- An escape in form, whether or not it writes a character: half a pair counts too. -/
inductive IsEscape : List Char → Prop where
  | letter {letter c : Char} (mem : (letter, c) ∈ escapeLetters) : IsEscape [letter]
  | unit {digits : List Char} {unit : Nat} (writes : WritesUnit digits unit) :
      IsEscape ('u' :: digits)

/-- What may stand between quotes, whether or not it means a string. -/
inductive IsQuotable : List Char → Prop where
  | nil : IsQuotable []
  | plain {c : Char} {spelling : List Char} (quote : c ≠ '"') (slash : c ≠ '\\')
      (printable : 0x20 ≤ c.toNat) (rest : IsQuotable spelling) : IsQuotable (c :: spelling)
  | escape {used spelling : List Char} (isEscape : IsEscape used) (rest : IsQuotable spelling) :
      IsQuotable ('\\' :: used ++ spelling)

/-- Two numbered escapes, one for each half of a pair, are in form like any others. -/
theorem Spells.isQuotable {text spelling : List Char} (h : Spells text spelling) :
    IsQuotable spelling := by
  induction h with
  | nil => exact .nil
  | plain hquote hslash hprintable _ ih => exact .plain hquote hslash hprintable ih
  | escape hwrites _ ih =>
    cases hwrites with
    | letter hmem => exact .escape (.letter hmem) ih
    | unit hdigits => exact .escape (.unit hdigits) ih
    | pair hhigh hlow _ _ _ =>
      have hboth := IsQuotable.escape (.unit hhigh) (.escape (.unit hlow) ih)
      simpa using hboth

section Reading

variable {readEscape : List Char → Except Error Escaped} {read cs : List Char} {c : Char}

theorem stringBody_passed (passed read cs : List Char) :
    stringBody readEscape passed.length read (passed ++ cs) = stringBody readEscape 0 read cs := by
  induction passed with
  | nil => rfl
  | cons c passed ih => simpa [stringBody] using ih

theorem stringBody_quote (read cs : List Char) :
    stringBody readEscape 0 read ('"' :: cs) = .ok (read.reverse, cs) := by
  simp [stringBody]

theorem stringBody_plain (hquote : c ≠ '"') (hslash : c ≠ '\\') (hprintable : 0x20 ≤ c.toNat)
    (read cs : List Char) :
    stringBody readEscape 0 read (c :: cs) = stringBody readEscape 0 (c :: read) cs := by
  simp [stringBody, hquote, hslash, Nat.not_lt.mpr hprintable]

theorem stringBody_escape {used : List Char}
    (h : readEscape (used ++ cs) = .ok ⟨c, used.length⟩) (read : List Char) :
    stringBody readEscape 0 read ('\\' :: (used ++ cs)) =
      stringBody readEscape 0 (c :: read) cs := by
  rw [← stringBody_passed used (c :: read) cs]
  simp [stringBody, h, bind, Except.bind]

end Reading

theorem WritesUnit.length {digits : List Char} {unit : Nat} (h : WritesUnit digits unit) :
    digits.length = 4 := by
  cases h
  rfl

theorem WritesUnit.hexUnit {digits : List Char} {unit : Nat} (h : WritesUnit digits unit)
    (cs : List Char) : hexUnit (digits ++ cs) = .ok unit := by
  cases h with
  | mk h₁ h₂ h₃ h₄ => simp [Json.hexUnit, h₁, h₂, h₃, h₄]

theorem ofEscapeLetter?_of_mem {letter c : Char} (h : (letter, c) ∈ escapeLetters) :
    letter ≠ 'u' ∧ ofEscapeLetter? letter = some c := by
  simp only [escapeLetters, List.mem_cons, Prod.mk.injEq, List.not_mem_nil, or_false] at h
  rcases h with h | h | h | h | h | h | h | h <;> obtain ⟨rfl, rfl⟩ := h <;> decide

theorem escape_letter {letter c : Char} (h : (letter, c) ∈ escapeLetters) (cs : List Char) :
    escape ([letter] ++ cs) = .ok ⟨c, [letter].length⟩ := by
  obtain ⟨hne, hletter⟩ := ofEscapeLetter?_of_mem h
  simp [escape, hne, hletter]

theorem not_isSurrogate (c : Char) :
    isLowSurrogate c.toNat = false ∧ isHighSurrogate c.toNat = false := by
  have hvalid : c.toNat < 0xd800 ∨ 0xdfff < c.toNat ∧ c.toNat < 0x110000 := c.valid
  simp only [isLowSurrogate, isHighSurrogate, Bool.and_eq_false_iff, decide_eq_false_iff_not]
  omega

theorem escape_unit {digits : List Char} {c : Char} (h : WritesUnit digits c.toNat)
    (cs : List Char) : escape ('u' :: digits ++ cs) = .ok ⟨c, ('u' :: digits).length⟩ := by
  obtain ⟨hlow, hhigh⟩ := not_isSurrogate c
  simp [escape, numberedEscape, h.hexUnit, h.length, hlow, hhigh, bind, Except.bind]

theorem escape_pair {highDigits lowDigits : List Char} {high low : Nat} {c : Char}
    (hhigh : WritesUnit highDigits high) (hlow : WritesUnit lowDigits low)
    (hisHigh : isHighSurrogate high = true) (hisLow : isLowSurrogate low = true)
    (hchar : c.toNat = 0x10000 + (high - 0xd800) * 0x400 + (low - 0xdc00)) (cs : List Char) :
    escape ('u' :: highDigits ++ '\\' :: 'u' :: lowDigits ++ cs) =
      .ok ⟨c, ('u' :: highDigits ++ '\\' :: 'u' :: lowDigits).length⟩ := by
  have hnotLow : isLowSurrogate high = false := by
    simp only [isHighSurrogate, isLowSurrogate, Bool.and_eq_true, decide_eq_true_eq,
      Bool.and_eq_false_iff, decide_eq_false_iff_not] at hisHigh ⊢
    omega
  have hdrop : (highDigits ++ '\\' :: 'u' :: (lowDigits ++ cs)).drop 4 =
      '\\' :: 'u' :: (lowDigits ++ cs) := by
    rw [← hhigh.length, List.drop_left]
  have hof : Char.ofNat (0x10000 + (high - 0xd800) * 0x400 + (low - 0xdc00)) = c := by
    rw [← hchar, Char.ofNat_toNat]
  have hliteral := literal_append ['\\', 'u'] (lowDigits ++ cs)
  have hfirst := hhigh.hexUnit ('\\' :: 'u' :: (lowDigits ++ cs))
  simp only [List.cons_append, List.append_assoc, List.nil_append] at hliteral ⊢
  simp [escape, numberedEscape, hfirst, hnotLow, hisHigh, hdrop, hliteral, hlow.hexUnit, hisLow,
    hof, hhigh.length, hlow.length, bind, Except.bind]

theorem WritesEscape.read {used : List Char} {c : Char} (h : WritesEscape used c)
    (cs : List Char) : escape (used ++ cs) = .ok ⟨c, used.length⟩ := by
  cases h with
  | letter hmem => exact escape_letter hmem cs
  | unit hdigits => exact escape_unit hdigits cs
  | pair hhigh hlow hisHigh hisLow hchar => exact escape_pair hhigh hlow hisHigh hisLow hchar cs

theorem stringBody_spells {text spelling : List Char} (h : Spells text spelling)
    (read cs : List Char) :
    stringBody escape 0 read (spelling ++ '"' :: cs) = .ok (read.reverse ++ text, cs) := by
  induction h generalizing read with
  | nil => simpa using stringBody_quote read cs
  | plain hquote hslash hprintable _ ih =>
    rw [List.cons_append, stringBody_plain hquote hslash hprintable, ih]
    simp
  | escape hwrites _ ih =>
    rw [List.append_assoc, List.cons_append, stringBody_escape (hwrites.read _), ih]
    simp

theorem string_spells {s : String} {spelling : List Char} (h : Spells s.toList spelling)
    (cs : List Char) : string (spelling ++ '"' :: cs) = .ok (s, cs) := by
  have hbody := stringBody_spells h [] cs
  simp [string, hbody, bind, Except.bind]

theorem looseEscape_letter {letter c : Char} (h : (letter, c) ∈ escapeLetters) (cs : List Char) :
    looseEscape ([letter] ++ cs) = .ok ⟨c, [letter].length⟩ := by
  obtain ⟨hne, -⟩ := ofEscapeLetter?_of_mem h
  rw [← escape_letter h cs]
  unfold looseEscape
  split
  · simp_all
  · rfl

theorem looseEscape_unit {digits : List Char} {unit : Nat} (h : WritesUnit digits unit)
    (cs : List Char) : looseEscape ('u' :: digits ++ cs) = .ok ⟨'u', ('u' :: digits).length⟩ := by
  simp [looseEscape, h.hexUnit, h.length, bind, Except.bind]

theorem IsEscape.read {used : List Char} (h : IsEscape used) (cs : List Char) :
    ∃ c, looseEscape (used ++ cs) = .ok ⟨c, used.length⟩ := by
  cases h with
  | letter hmem => exact ⟨_, looseEscape_letter hmem cs⟩
  | unit hdigits => exact ⟨_, looseEscape_unit hdigits cs⟩

theorem stringBody_isQuotable {spelling : List Char} (h : IsQuotable spelling)
    (read cs : List Char) :
    ∃ text, stringBody looseEscape 0 read (spelling ++ '"' :: cs) = .ok (text, cs) := by
  induction h generalizing read with
  | nil => exact ⟨_, stringBody_quote read cs⟩
  | plain hquote hslash hprintable _ ih =>
    rw [List.cons_append, stringBody_plain hquote hslash hprintable]
    exact ih _
  | @escape used spelling hescape _ ih =>
    obtain ⟨c, hread⟩ := hescape.read (spelling ++ '"' :: cs)
    rw [List.append_assoc, List.cons_append, stringBody_escape hread]
    exact ih _

theorem skipString_isQuotable {spelling : List Char} (h : IsQuotable spelling) (cs : List Char) :
    skipString (spelling ++ '"' :: cs) = .ok ((), cs) := by
  obtain ⟨text, hbody⟩ := stringBody_isQuotable h [] cs
  simp [skipString, hbody, bind, Except.bind]

theorem mem_escapeLetters_of_writtenLetter? {letter c : Char} (h : writtenLetter? c = some letter) :
    (letter, c) ∈ escapeLetters := by
  unfold writtenLetter? at h
  split at h
  all_goals cases h
  all_goals decide

theorem hexDigit?_digitChar : ∀ d < 16, hexDigit? (Nat.digitChar d) = some d := by decide

theorem Spells.written {text spelling : List Char} (h : Spells text spelling) (c : Char) :
    Spells (c :: text) (writtenChar c ++ spelling) := by
  unfold writtenChar
  split
  · rename_i letter hletter
    exact .escape (.letter (mem_escapeLetters_of_writtenLetter? hletter)) h
  · rename_i hnone
    by_cases hcontrol : c.toNat < 0x20
    · rw [if_pos hcontrol]
      have hunit : WritesUnit ['0', '0', Nat.digitChar (c.toNat / 16), Nat.digitChar (c.toNat % 16)]
          (((0 * 16 + 0) * 16 + c.toNat / 16) * 16 + c.toNat % 16) :=
        .mk (by decide) (by decide) (hexDigit?_digitChar _ (by omega))
          (hexDigit?_digitChar _ (by omega))
      have hvalue : ((0 * 16 + 0) * 16 + c.toNat / 16) * 16 + c.toNat % 16 = c.toNat := by omega
      rw [hvalue] at hunit
      exact .escape (.unit hunit) h
    · rw [if_neg hcontrol]
      refine .plain ?_ ?_ (Nat.not_lt.mp hcontrol) h
      · rintro rfl
        cases hnone
      · rintro rfl
        cases hnone

theorem spells_written (text : List Char) : Spells text (text.flatMap writtenChar) := by
  induction text with
  | nil => exact .nil
  | cons c text ih => exact ih.written c

end LegalMoves.Json
