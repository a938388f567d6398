import LegalMoves.Json.Number
import LegalMoves.Json.Write
import LegalMoves.Lists
import Mathlib.Data.Nat.Digits.Defs

set_option autoImplicit false

/-!
Numbers in writing. Every text that has the form of a number is passed over as one, whatever its
size, and a natural number in decimal digits is read back if it fits 64 bits. The reader goes on as
long as it can, so both need a text behind the number that does not carry on with it.
-/
namespace LegalMoves.Json

/-- A text that does not go on with digits. -/
def EndsDigits (cs : List Char) : Prop := ∀ c rest, cs = c :: rest → c.isDigit = false

/-- A text that does not go on with any part of a number. -/
def EndsNumber (cs : List Char) : Prop :=
  ∀ c rest, cs = c :: rest → c.isDigit = false ∧ c ≠ '.' ∧ c ≠ 'e' ∧ c ≠ 'E'

def IsDigits (cs : List Char) : Prop := cs ≠ [] ∧ ∀ c ∈ cs, c.isDigit = true

/-- A zero alone, or digits that do not begin with one. -/
inductive IsWhole : List Char → Prop where
  | zero : IsWhole ['0']
  | digits {c : Char} {ds : List Char} (nonzero : c ≠ '0') (isDigits : IsDigits (c :: ds)) :
      IsWhole (c :: ds)

inductive IsFraction : List Char → Prop where
  | absent : IsFraction []
  | present {ds : List Char} (isDigits : IsDigits ds) : IsFraction ('.' :: ds)

inductive IsExponent : List Char → Prop where
  | absent : IsExponent []
  | present {e : Char} {sign ds : List Char} (letter : e = 'e' ∨ e = 'E')
      (isSign : sign ∈ [[], ['+'], ['-']]) (isDigits : IsDigits ds) :
      IsExponent (e :: sign ++ ds)

/-- The form of a number, with no bound on its size. -/
inductive IsNumber : List Char → Prop where
  | mk {sign whole fraction exponent : List Char} (isSign : sign ∈ [[], ['-']])
      (isWhole : IsWhole whole) (isFraction : IsFraction fraction)
      (isExponent : IsExponent exponent) : IsNumber (sign ++ whole ++ fraction ++ exponent)

def digitValue (c : Char) : Nat := c.toNat - 48

section Scanning

variable {c : Char} {ds cs : List Char}

theorem digit?_of_isDigit (h : c.isDigit = true) : digit? c = some (digitValue c) := by
  have hrange : '0' ≤ c ∧ c ≤ '9' := by simpa [Char.isDigit, Char.le_def] using h
  rw [digit?, if_pos hrange, digitValue]

theorem digit?_of_not_isDigit (h : c.isDigit = false) : digit? c = none := by
  have hrange : ¬ ('0' ≤ c ∧ c ≤ '9') := by
    intro hrange
    have hdigit : c.isDigit = true := by simpa [Char.isDigit, Char.le_def] using hrange
    rw [h] at hdigit
    cases hdigit
  rw [digit?, if_neg hrange]

theorem digits_of_endsDigits (h : EndsDigits cs) : digits cs = ([], cs) := by
  cases cs with
  | nil => rfl
  | cons c rest => rw [digits, digit?_of_not_isDigit (h c rest rfl)]

theorem digits_append (hds : ∀ c ∈ ds, c.isDigit = true) (hcs : EndsDigits cs) :
    digits (ds ++ cs) = (ds.map digitValue, cs) := by
  induction ds with
  | nil => exact digits_of_endsDigits hcs
  | cons c ds ih =>
    have hothers := ih fun d hmem => hds d (by simp [hmem])
    rw [List.cons_append, digits, digit?_of_isDigit (hds c (by simp)), hothers]
    rfl

theorem someDigits_append (h : IsDigits ds) (hcs : EndsDigits cs) :
    someDigits (ds ++ cs) = .ok (ds.map digitValue, cs) := by
  obtain ⟨hne, hall⟩ := h
  rw [someDigits, digits_append hall hcs]
  cases ds with
  | nil => exact absurd rfl hne
  | cons d ds => rfl

theorem IsDigits.exists_cons (h : IsDigits ds) : ∃ c rest, ds = c :: rest ∧ c.isDigit = true := by
  obtain ⟨hne, hall⟩ := h
  cases ds with
  | nil => exact absurd rfl hne
  | cons c rest => exact ⟨c, rest, rfl, hall c (by simp)⟩

theorem IsWhole.isDigits (h : IsWhole ds) : IsDigits ds := by
  cases h with
  | zero => exact ⟨by simp, by simp [Char.isDigit]⟩
  | digits _ hdigits => exact hdigits

theorem digitValue_eq_zero_iff (h : c.isDigit = true) : digitValue c = 0 ↔ c = '0' := by
  have hrange : 48 ≤ c.toNat ∧ c.toNat ≤ 57 := by
    simpa [Char.isDigit, UInt32.le_iff_toNat_le] using h
  have hchar : c = '0' ↔ c.toNat = 48 := by rw [← Char.toNat_inj]; rfl
  rw [hchar, digitValue]
  omega

theorem scanWhole_append (h : IsWhole ds) (hcs : EndsDigits cs) :
    Numeral.scanWhole (ds ++ cs) = .ok (ds.map digitValue, cs) := by
  -- A zero in front is refused unless it is the only digit.
  have hleading : ¬ ((ds.map digitValue).head? = some 0 ∧ (ds.map digitValue).length ≠ 1) := by
    cases h with
    | zero => simp
    | @digits c ds hnonzero hdigits =>
      have hzero := (digitValue_eq_zero_iff (hdigits.2 c (by simp))).not.mpr hnonzero
      simp [hzero]
  simp only [Numeral.scanWhole, someDigits_append h.isDigits hcs, bind, Except.bind]
  rw [if_neg hleading]

theorem scanFraction_absent (h : ∀ rest, cs ≠ '.' :: rest) :
    Numeral.scanFraction cs = .ok (none, cs) := by
  rw [Numeral.scanFraction]
  exact fun rest => h rest

theorem scanFraction_append {fraction : List Char} (h : IsFraction fraction) (hcs : EndsDigits cs)
    (hpoint : ∀ rest, cs ≠ '.' :: rest) :
    ∃ read, Numeral.scanFraction (fraction ++ cs) = .ok (read, cs) := by
  cases h with
  | absent => exact ⟨none, scanFraction_absent hpoint⟩
  | @present ds hdigits =>
    refine ⟨some (ds.map digitValue), ?_⟩
    simp [Numeral.scanFraction, someDigits_append hdigits hcs, bind, Except.bind]

theorem scanExponent_absent (h : EndsNumber cs) : Numeral.scanExponent cs = .ok (none, cs) := by
  cases cs with
  | nil => rfl
  | cons c rest =>
    obtain ⟨-, -, hlower, hupper⟩ := h c rest rfl
    rw [Numeral.scanExponent, if_neg (by simp [hlower, hupper])]

theorem EndsNumber.endsDigits (h : EndsNumber cs) : EndsDigits cs :=
  fun c rest hcons => (h c rest hcons).1

theorem scanSign_append {sign : List Char} (hsign : sign ∈ [[], ['+'], ['-']]) (h : IsDigits ds)
    (cs : List Char) :
    ∃ negative, Numeral.scanSign (sign ++ (ds ++ cs)) = (negative, ds ++ cs) := by
  obtain ⟨d, rest, rfl, hdigit⟩ := h.exists_cons
  simp only [List.mem_cons, List.not_mem_nil, or_false] at hsign
  rcases hsign with rfl | rfl | rfl
  · refine ⟨false, ?_⟩
    rw [List.nil_append, List.cons_append, Numeral.scanSign]
    · rintro rest' hcons
      obtain ⟨rfl, -⟩ := List.cons.inj hcons
      cases hdigit
    · rintro rest' hcons
      obtain ⟨rfl, -⟩ := List.cons.inj hcons
      cases hdigit
  · exact ⟨false, rfl⟩
  · exact ⟨true, rfl⟩

theorem scanExponent_append {exponent : List Char} (h : IsExponent exponent) (hcs : EndsNumber cs) :
    ∃ read, Numeral.scanExponent (exponent ++ cs) = .ok (read, cs) := by
  cases h with
  | absent => exact ⟨none, scanExponent_absent hcs⟩
  | @present e sign ds hletter hsign hdigits =>
    obtain ⟨negative, hscan⟩ := scanSign_append hsign hdigits cs
    refine ⟨some (negative, ds.map digitValue), ?_⟩
    rw [List.cons_append, List.cons_append, List.append_assoc, Numeral.scanExponent,
      if_pos hletter, hscan]
    simp only [someDigits_append hdigits hcs.endsDigits, bind, Except.bind]

theorem IsExponent.ends {exponent : List Char} (h : IsExponent exponent) (hcs : EndsNumber cs) :
    EndsDigits (exponent ++ cs) ∧ ∀ rest, exponent ++ cs ≠ '.' :: rest := by
  cases h with
  | absent =>
    refine ⟨hcs.endsDigits, fun rest hcons => ?_⟩
    exact (hcs '.' rest hcons).2.1 rfl
  | present hletter =>
    constructor
    · intro c rest hcons
      obtain ⟨rfl, -⟩ := List.cons.inj hcons
      rcases hletter with rfl | rfl <;> rfl
    · intro rest hcons
      obtain ⟨rfl, -⟩ := List.cons.inj hcons
      rcases hletter with h | h <;> cases h

theorem IsFraction.endsDigits {fraction : List Char} (h : IsFraction fraction)
    (hcs : EndsDigits cs) : EndsDigits (fraction ++ cs) := by
  cases h with
  | absent => exact hcs
  | present =>
    intro c rest hcons
    obtain ⟨rfl, -⟩ := List.cons.inj hcons
    rfl

theorem scanUnsigned_append {whole fraction exponent : List Char} (hwhole : IsWhole whole)
    (hfraction : IsFraction fraction) (hexponent : IsExponent exponent) (hcs : EndsNumber cs)
    (negative : Bool) :
    ∃ n, Numeral.scanUnsigned negative (whole ++ (fraction ++ (exponent ++ cs))) = .ok (n, cs) := by
  obtain ⟨hends, hpoint⟩ := hexponent.ends hcs
  obtain ⟨f, hf⟩ := scanFraction_append hfraction hends hpoint
  obtain ⟨e, he⟩ := scanExponent_append hexponent hcs
  refine ⟨⟨negative, whole.map digitValue, f, e⟩, ?_⟩
  simp only [Numeral.scanUnsigned, scanWhole_append hwhole (hfraction.endsDigits hends), hf, he,
    bind, Except.bind]

theorem IsDigits.ne_minus (h : IsDigits ds) (rest cs : List Char) : ds ++ cs ≠ '-' :: rest := by
  obtain ⟨d, ds, rfl, hdigit⟩ := h.exists_cons
  intro hcons
  obtain ⟨rfl, -⟩ := List.cons.inj hcons
  cases hdigit

theorem scan_unsigned (h : IsDigits ds) (cs : List Char) :
    Numeral.scan (ds ++ cs) = Numeral.scanUnsigned false (ds ++ cs) := by
  rw [Numeral.scan]
  exact fun rest => h.ne_minus rest cs

theorem IsNumber.exists_cons {number : List Char} (h : IsNumber number) :
    ∃ c rest, number = c :: rest ∧ (c = '-' ∨ c.isDigit = true) := by
  cases h with
  | @mk sign whole fraction exponent hsign hwhole _ _ =>
    simp only [List.mem_cons, List.not_mem_nil, or_false] at hsign
    rcases hsign with rfl | rfl
    · obtain ⟨c, rest, hcons, hc⟩ := hwhole.isDigits.exists_cons
      exact ⟨c, rest ++ fraction ++ exponent, by simp [hcons], .inr hc⟩
    · exact ⟨'-', whole ++ fraction ++ exponent, by simp, .inl rfl⟩

theorem skipNumber_append {number : List Char} (h : IsNumber number) (hcs : EndsNumber cs) :
    skipNumber (number ++ cs) = .ok ((), cs) := by
  have hscan : ∃ n, Numeral.scan (number ++ cs) = .ok (n, cs) := by
    cases h with
    | @mk sign whole fraction exponent hsign hwhole hfraction hexponent =>
      have hshape : sign ++ whole ++ fraction ++ exponent ++ cs =
          sign ++ (whole ++ (fraction ++ (exponent ++ cs))) := by simp
      rw [hshape]
      simp only [List.mem_cons, List.not_mem_nil, or_false] at hsign
      rcases hsign with rfl | rfl
      · rw [List.nil_append, scan_unsigned hwhole.isDigits]
        exact scanUnsigned_append hwhole hfraction hexponent hcs false
      · exact scanUnsigned_append hwhole hfraction hexponent hcs true
  obtain ⟨n, hn⟩ := hscan
  rw [skipNumber, hn]

theorem isDigits_writeNat (n : Nat) : IsDigits (writeNat n) :=
  ⟨Nat.toDigits_ne_nil, fun _ hmem => Nat.isDigit_of_mem_toDigits (by decide) (by decide) hmem⟩

theorem writeNat_eq_cons {n : Nat} (h : 0 < n) : ∃ c ds, writeNat n = c :: ds ∧ c ≠ '0' := by
  induction n using Nat.strongRecOn with
  | ind n ih =>
    by_cases hsmall : n < 10
    · refine ⟨Nat.digitChar n, [], Nat.toDigits_of_lt_base hsmall, fun heq => ?_⟩
      have hvalue := congrArg Char.toNat heq
      rw [Nat.toNat_digitChar_of_lt_ten hsmall] at hvalue
      have hzero : '0'.toNat = 48 := rfl
      omega
    · obtain ⟨c, ds, hdigits, hc⟩ := ih (n / 10) (by omega) (by omega)
      refine ⟨c, ds ++ [Nat.digitChar (n % 10)], ?_, hc⟩
      have hsplit : writeNat n = writeNat (n / 10) ++ [Nat.digitChar (n % 10)] :=
        Nat.toDigits_of_base_le (by decide) (by omega)
      rw [hsplit, hdigits, List.cons_append]

theorem isWhole_writeNat (n : Nat) : IsWhole (writeNat n) := by
  rcases Nat.eq_zero_or_pos n with rfl | hpos
  · exact .zero
  · obtain ⟨c, ds, hdigits, hc⟩ := writeNat_eq_cons hpos
    have hall := isDigits_writeNat n
    rw [hdigits] at hall ⊢
    exact .digits hc hall

theorem isNumber_writeNat (n : Nat) : IsNumber (writeNat n) := by
  have hnumber := IsNumber.mk (List.mem_cons_self) (isWhole_writeNat n) .absent .absent
  simpa using hnumber

theorem absorb_map_digitValue (ds : List Char) (n : Nat)
    (h : Nat.ofDigitChars 10 ds n < UInt64.size) :
    Numeral.absorb n (ds.map digitValue) = (Nat.ofDigitChars 10 ds n, 0) := by
  induction ds generalizing n with
  | nil => rfl
  | cons d ds ih =>
    have hstep : n * 10 + digitValue d = 10 * n + (d.toNat - '0'.toNat) := by
      rw [Nat.mul_comm]
      rfl
    rw [Nat.ofDigitChars_cons] at h ⊢
    have hlt := Nat.lt_of_le_of_lt (Nat.le_ofDigitChars ds _) h
    rw [List.map_cons, Numeral.absorb, hstep, if_pos hlt, ih _ h]

theorem number_writeNat {n : Nat} (h : n < UInt64.size) (hcs : EndsNumber cs) :
    number (writeNat n ++ cs) = .ok (.integer n, cs) := by
  have hread : Nat.ofDigitChars 10 (writeNat n) 0 = n :=
    Nat.ofDigitChars_toDigits (by decide) (by decide)
  have habsorb := absorb_map_digitValue (writeNat n) 0 (by rw [hread]; exact h)
  have hscan : Numeral.scan (writeNat n ++ cs) =
      .ok (⟨false, (writeNat n).map digitValue, none, none⟩, cs) := by
    have hfraction := scanFraction_absent fun rest hcons => (hcs '.' rest hcons).2.1 rfl
    rw [scan_unsigned (isDigits_writeNat n), Numeral.scanUnsigned]
    simp only [scanWhole_append (isWhole_writeNat n) hcs.endsDigits, hfraction,
      scanExponent_absent hcs, bind, Except.bind]
  rw [number]
  simp [hscan, Numeral.value, habsorb, hread, bind, Except.bind]

end Scanning
end LegalMoves.Json
