import LegalMoves.Json.Skip
import LegalMoves.Proofs.Spelling
import LegalMoves.Proofs.Numerals
import Mathlib.Data.List.DropRight

set_option autoImplicit false

/-!
The grammar of JSON, and that every value it derives is passed over. Lists and objects differ only
in what stands before an entry, so one rule of the grammar and one lemma serves both. Passing over a
phrase takes a number of steps that its length bounds, whatever stands behind it.
-/
namespace LegalMoves.Json

def IsBlanks (b : List Char) : Prop := ∀ c ∈ b, isBlank c = true

def Bracket.opening : Bracket → Char
  | list => '['
  | object => '\x7b'

inductive Phrase where
  | value
  | entry (bracket : Bracket)
  | entries (bracket : Bracket)

/-- The texts of each kind of phrase. Blanks may stand around keys and around the values in
brackets; keys may be repeated. -/
inductive Derives : Phrase → List Char → Prop where
  | word {w : List Char} (mem : w ∈ [writeNull, writeBool true, writeBool false]) : Derives .value w
  | number {n : List Char} (isNumber : IsNumber n) : Derives .value n
  | string {s : List Char} (isQuotable : IsQuotable s) : Derives .value ('"' :: s ++ ['"'])
  | empty (bracket : Bracket) {b : List Char} (blanks : IsBlanks b) :
      Derives .value (bracket.opening :: b ++ [bracket.closing])
  | nested {bracket : Bracket} {inside : List Char} (entries : Derives (.entries bracket) inside) :
      Derives .value (bracket.opening :: inside ++ [bracket.closing])
  | item {b₁ v b₂ : List Char} (before : IsBlanks b₁) (value : Derives .value v)
      (after : IsBlanks b₂) : Derives (.entry .list) (b₁ ++ v ++ b₂)
  | member {b₁ key b₂ b₃ v b₄ : List Char} (beforeKey : IsBlanks b₁) (isQuotable : IsQuotable key)
      (afterKey : IsBlanks b₂) (before : IsBlanks b₃) (value : Derives .value v)
      (after : IsBlanks b₄) :
      Derives (.entry .object) (b₁ ++ '"' :: key ++ '"' :: b₂ ++ ':' :: b₃ ++ v ++ b₄)
  | last {bracket : Bracket} {t : List Char} (entry : Derives (.entry bracket) t) :
      Derives (.entries bracket) t
  | more {bracket : Bracket} {t ts : List Char} (entry : Derives (.entry bracket) t)
      (others : Derives (.entries bracket) ts) : Derives (.entries bracket) (t ++ ',' :: ts)

section Blanks

variable {b cs : List Char}

theorem isBlanks_nil : IsBlanks [] := fun _ hmem => nomatch hmem

theorem skipBlanks_append (h : IsBlanks b) (cs : List Char) :
    skipBlanks (b ++ cs) = skipBlanks cs := List.dropWhile_append_of_pos h

theorem skipBlanks_skipBlanks (cs : List Char) : skipBlanks (skipBlanks cs) = skipBlanks cs :=
  List.dropWhile_idempotent isBlank cs

theorem mark_append (h : IsBlanks b) (wanted : Char) (cs : List Char) :
    mark wanted (b ++ cs) = mark wanted cs := by
  rw [mark, mark, skipBlanks_append h]

theorem mark_cons (wanted : Char) (h : isBlank wanted = false) (cs : List Char) :
    mark wanted (wanted :: cs) = .ok ((), cs) := by
  rw [mark, skipBlanks_cons_of_not h]
  exact literal_append [wanted] cs

theorem endsNumber_cons {c : Char}
    (h : c.isDigit = false ∧ c ≠ '.' ∧ c ≠ 'e' ∧ c ≠ 'E') (cs : List Char) :
    EndsNumber (c :: cs) := by
  rintro d rest hcons
  obtain ⟨rfl, -⟩ := List.cons.inj hcons
  exact h

theorem isBlank_iff {c : Char} : isBlank c = true ↔ c ∈ [' ', '\n', '\t', '\r'] := by
  simp [isBlank, or_assoc]

theorem EndsNumber.blanks (h : EndsNumber cs) (hb : IsBlanks b) : EndsNumber (b ++ cs) := by
  cases b with
  | nil => exact h
  | cons c b =>
    have hall : ∀ c ∈ [' ', '\n', '\t', '\r'],
        c.isDigit = false ∧ c ≠ '.' ∧ c ≠ 'e' ∧ c ≠ 'E' := by simp
    exact endsNumber_cons (hall c (isBlank_iff.mp (hb c (by simp)))) (b ++ cs)

end Blanks

/-- Goes on behind the front of a bracket or a comma, where an entry has to follow. -/
def skipEntry (fuel : Nat) (bracket : Bracket) (brackets : List Bracket) (cs : List Char) :
    Except Error (List Char) :=
  match bracket with
  | .list => skipValue fuel (.list :: brackets) cs
  | .object => do
    let (_, cs) ← skipKey cs
    skipValue fuel (.object :: brackets) cs

section Steps

variable {fuel : Nat} {behind : Bool} {bracket : Bracket} {brackets : List Bracket}
  {b cs rest : List Char} {c : Char}

theorem skipValue_append (h : IsBlanks b) (fuel : Nat) (brackets : List Bracket) (cs : List Char) :
    skipValue fuel brackets (b ++ cs) = skipValue fuel brackets cs := by
  cases fuel with
  | zero => rfl
  | succ fuel => rw [skipValue, skipValue, skipBlanks_append h]

theorem skipEntry_skipBlanks (fuel : Nat) (bracket : Bracket) (brackets : List Bracket)
    (cs : List Char) :
    skipEntry fuel bracket brackets (skipBlanks cs) = skipEntry fuel bracket brackets cs := by
  cases bracket with
  | list =>
    cases fuel with
    | zero => rfl
    | succ fuel => simp only [skipEntry, skipValue, skipBlanks_skipBlanks]
  | object => simp only [skipEntry, skipKey, mark, skipBlanks_skipBlanks]

theorem skipOn_append (h : IsBlanks b) (fuel : Nat) (behind : Bool) (bracket : Bracket)
    (brackets : List Bracket) (cs : List Char) :
    skipOn fuel behind (bracket :: brackets) (b ++ cs) =
      skipOn fuel behind (bracket :: brackets) cs := by
  cases fuel with
  | zero => rfl
  | succ fuel => rw [skipOn, skipOn, skipBlanks_append h]

theorem Bracket.isBlank_closing (bracket : Bracket) : isBlank bracket.closing = false := by
  cases bracket <;> rfl

theorem skipOn_closing (fuel : Nat) (behind : Bool) (bracket : Bracket) (brackets : List Bracket)
    (cs : List Char) :
    skipOn (fuel + 1) behind (bracket :: brackets) (bracket.closing :: cs) =
      skipOn fuel true brackets cs := by
  rw [skipOn, skipBlanks_cons_of_not bracket.isBlank_closing]
  simp

theorem skipOn_comma (fuel : Nat) (bracket : Bracket) (brackets : List Bracket) (cs : List Char) :
    skipOn (fuel + 1) true (bracket :: brackets) (',' :: cs) =
      skipEntry fuel bracket brackets cs := by
  have hcomma : ',' ≠ bracket.closing := by cases bracket <;> decide
  rw [skipOn, skipBlanks_cons_of_not rfl]
  simp only [if_neg hcomma]
  cases bracket <;> rfl

theorem skipOn_first (hcs : skipBlanks cs = c :: rest) (hc : c ≠ bracket.closing) :
    skipOn (fuel + 1) false (bracket :: brackets) cs = skipEntry fuel bracket brackets cs := by
  rw [← skipEntry_skipBlanks, skipOn, hcs]
  simp only [if_neg hc]
  cases bracket <;> rfl

theorem skipValue_opening (fuel : Nat) (bracket : Bracket) (brackets : List Bracket)
    (cs : List Char) :
    skipValue (fuel + 1) brackets (bracket.opening :: cs) =
      skipOn fuel false (bracket :: brackets) cs := by
  cases bracket
  · rw [skipValue, skipBlanks_cons_of_not (c := Bracket.list.opening) rfl]
    rfl
  · rw [skipValue, skipBlanks_cons_of_not (c := Bracket.object.opening) rfl]
    rfl

end Steps

section Values

variable {phrase : Phrase} {t cs : List Char} {c : Char}

theorem ne_of_startsNumber (h : c = '-' ∨ c.isDigit = true) :
    ∀ d ∈ [' ', '\n', '\t', '\r', 'n', 't', 'f', '"', '[', ']', '\x7b', '\x7d'], c ≠ d := by
  have hall : ∀ d ∈ [' ', '\n', '\t', '\r', 'n', 't', 'f', '"', '[', ']', '\x7b', '\x7d'],
      ¬ (d = '-' ∨ d.isDigit = true) := by simp
  rintro d hmem rfl
  exact hall c hmem h

theorem isBlank_of_startsNumber (h : c = '-' ∨ c.isDigit = true) : isBlank c = false := by
  rw [Bool.eq_false_iff]
  intro hblank
  have hmem := isBlank_iff.mp hblank
  exact ne_of_startsNumber h c (by simp only [List.mem_cons] at hmem ⊢; tauto) rfl

theorem isSome_digit?_of_startsNumber (h : c = '-' ∨ c.isDigit = true) :
    c = '-' ∨ (digit? c).isSome := by
  refine h.imp_right fun hdigit => ?_
  rw [digit?_of_isDigit hdigit]
  rfl

/-- A phrase starts with what its kind says and not with a closing bracket. -/
theorem Derives.starts (h : Derives phrase t) (cs : List Char) :
    ∃ c rest, skipBlanks (t ++ cs) = c :: rest ∧ c ≠ ']' ∧ c ≠ '\x7d' := by
  induction h generalizing cs with
  | word hmem =>
    simp only [List.mem_cons, List.not_mem_nil, or_false] at hmem
    rcases hmem with rfl | rfl | rfl
    · exact ⟨'n', _, rfl, by decide, by decide⟩
    · exact ⟨'t', _, rfl, by decide, by decide⟩
    · exact ⟨'f', _, rfl, by decide, by decide⟩
  | number hnumber =>
    obtain ⟨c, rest, rfl, hc⟩ := hnumber.exists_cons
    have hne := ne_of_startsNumber hc
    rw [List.cons_append, skipBlanks_cons_of_not (isBlank_of_startsNumber hc)]
    exact ⟨c, _, rfl, hne ']' (by simp), hne '\x7d' (by simp)⟩
  | string _ => exact ⟨'"', _, rfl, by decide, by decide⟩
  | empty bracket _ =>
    cases bracket
    · exact ⟨'[', _, rfl, by decide, by decide⟩
    · exact ⟨'\x7b', _, rfl, by decide, by decide⟩
  | @nested bracket _ _ _ =>
    cases bracket
    · exact ⟨'[', _, rfl, by decide, by decide⟩
    · exact ⟨'\x7b', _, rfl, by decide, by decide⟩
  | item hbefore _ _ ih =>
    rw [List.append_assoc, List.append_assoc, skipBlanks_append hbefore]
    exact ih _
  | member hbefore _ _ _ _ _ _ =>
    simp only [List.append_assoc, List.cons_append, skipBlanks_append hbefore]
    exact ⟨'"', _, rfl, by decide, by decide⟩
  | last _ ih => exact ih cs
  | more _ _ ih _ =>
    rw [List.append_assoc]
    exact ih _

/-- What a phrase is passed over in. Behind a value the reader goes on with the open brackets, and
behind an entry with the bracket that the entry stands in. -/
def Passes (steps : Nat) (t : List Char) : Phrase → Prop
  | .value => ∀ fuel brackets cs, EndsNumber cs →
      skipValue (fuel + steps) brackets (t ++ cs) = skipOn fuel true brackets cs
  | .entry bracket | .entries bracket => ∀ fuel brackets cs, EndsNumber cs →
      skipEntry (fuel + steps) bracket brackets (t ++ cs) =
        skipOn fuel true (bracket :: brackets) cs

theorem passes_word {w : List Char} (h : w ∈ [writeNull, writeBool true, writeBool false]) :
    Passes 1 w .value := by
  intro fuel brackets cs _
  simp only [List.mem_cons, List.not_mem_nil, or_false] at h
  rcases h with rfl | rfl | rfl
  · have hshape : writeNull ++ cs = 'n' :: (['u', 'l', 'l'] ++ cs) := rfl
    rw [hshape, skipValue, skipBlanks_cons_of_not rfl]
    simp only [literal_append, bind, Except.bind]
  · have hshape : writeBool true ++ cs = 't' :: (['r', 'u', 'e'] ++ cs) := rfl
    rw [hshape, skipValue, skipBlanks_cons_of_not rfl]
    simp only [literal_append, bind, Except.bind]
  · have hshape : writeBool false ++ cs = 'f' :: (['a', 'l', 's', 'e'] ++ cs) := rfl
    rw [hshape, skipValue, skipBlanks_cons_of_not rfl]
    simp only [literal_append, bind, Except.bind]

theorem skipValue_of_startsNumber (h : c = '-' ∨ c.isDigit = true) (fuel : Nat)
    (brackets : List Bracket) (cs : List Char) :
    skipValue (fuel + 1) brackets (c :: cs) =
      (skipNumber (c :: cs)).bind fun read => skipOn fuel true brackets read.2 := by
  have hne := ne_of_startsNumber h
  rw [skipValue, skipBlanks_cons_of_not (isBlank_of_startsNumber h)]
  split
  case h_8 hcons =>
    obtain ⟨rfl, rfl⟩ := List.cons.inj hcons
    rw [if_pos (isSome_digit?_of_startsNumber h)]
    rfl
  all_goals simp_all

theorem passes_number {n : List Char} (h : IsNumber n) : Passes 1 n .value := by
  intro fuel brackets cs hcs
  have hskip := skipNumber_append h hcs
  obtain ⟨c, rest, rfl, hc⟩ := h.exists_cons
  rw [List.cons_append] at hskip ⊢
  rw [skipValue_of_startsNumber hc, hskip, Except.bind]

theorem passes_string {s : List Char} (h : IsQuotable s) : Passes 1 ('"' :: s ++ ['"']) .value := by
  intro fuel brackets cs _
  have hskip := skipString_isQuotable h cs
  have hshape : '"' :: s ++ ['"'] ++ cs = '"' :: (s ++ '"' :: cs) := by simp
  rw [hshape, skipValue, skipBlanks_cons_of_not rfl]
  simp [hskip, bind, Except.bind]

theorem passes_empty (bracket : Bracket) {b : List Char} (h : IsBlanks b) :
    Passes 2 (bracket.opening :: b ++ [bracket.closing]) .value := by
  intro fuel brackets cs _
  have hshape : bracket.opening :: b ++ [bracket.closing] ++ cs =
      bracket.opening :: (b ++ bracket.closing :: cs) := by simp
  rw [hshape, skipValue_opening, skipOn_append h, skipOn_closing]

theorem passes_nested {bracket : Bracket} {inside : List Char} {steps : Nat}
    (hderives : Derives (.entries bracket) inside) (h : Passes steps inside (.entries bracket)) :
    Passes (steps + 3) (bracket.opening :: inside ++ [bracket.closing]) .value := by
  intro fuel brackets cs _
  have hshape : bracket.opening :: inside ++ [bracket.closing] ++ cs =
      bracket.opening :: (inside ++ bracket.closing :: cs) := by simp
  have hends : EndsNumber (bracket.closing :: cs) :=
    endsNumber_cons (by cases bracket <;> decide) cs
  obtain ⟨c, rest, hstarts, hlist, hobject⟩ := hderives.starts (bracket.closing :: cs)
  have hc : c ≠ bracket.closing := by cases bracket <;> assumption
  -- One step each for the opening bracket, for finding the first entry and for the closing one.
  have hfuel : fuel + (steps + 3) = fuel + 1 + steps + 1 + 1 := by omega
  rw [hshape, hfuel, skipValue_opening, skipOn_first hstarts hc, h (fuel + 1) brackets _ hends,
    skipOn_closing]

theorem passes_item {b₁ v b₂ : List Char} {steps : Nat} (hbefore : IsBlanks b₁)
    (h : Passes steps v .value) (hafter : IsBlanks b₂) :
    Passes steps (b₁ ++ v ++ b₂) (.entry .list) := by
  intro fuel brackets cs hcs
  simp only [skipEntry, List.append_assoc, skipValue_append hbefore]
  rw [h fuel _ (b₂ ++ cs) (hcs.blanks hafter), skipOn_append hafter]

theorem skipKey_append {b₁ key b₂ : List Char} (hbefore : IsBlanks b₁) (h : IsQuotable key)
    (hafter : IsBlanks b₂) (cs : List Char) :
    skipKey (b₁ ++ '"' :: (key ++ '"' :: (b₂ ++ ':' :: cs))) = .ok ((), cs) := by
  have hquote := mark_cons '"' rfl (key ++ '"' :: (b₂ ++ ':' :: cs))
  have hkey := skipString_isQuotable h (b₂ ++ ':' :: cs)
  have hcolon := mark_cons ':' rfl cs
  rw [skipKey, mark_append hbefore, hquote]
  simp only [bind, Except.bind, hkey, mark_append hafter, hcolon]

theorem passes_member {b₁ key b₂ b₃ v b₄ : List Char} {steps : Nat} (hbeforeKey : IsBlanks b₁)
    (hkey : IsQuotable key) (hafterKey : IsBlanks b₂) (hbefore : IsBlanks b₃)
    (h : Passes steps v .value) (hafter : IsBlanks b₄) :
    Passes steps (b₁ ++ '"' :: key ++ '"' :: b₂ ++ ':' :: b₃ ++ v ++ b₄) (.entry .object) := by
  intro fuel brackets cs hcs
  have hskip := skipKey_append hbeforeKey hkey hafterKey (b₃ ++ (v ++ (b₄ ++ cs)))
  have hvalue := h fuel (.object :: brackets) (b₄ ++ cs) (hcs.blanks hafter)
  simp only [skipEntry, List.append_assoc, List.cons_append, hskip, bind, Except.bind,
    skipValue_append hbefore]
  rw [hvalue, skipOn_append hafter]

theorem passes_more {bracket : Bracket} {t ts : List Char} {steps others : Nat}
    (h : Passes steps t (.entry bracket)) (hothers : Passes others ts (.entries bracket)) :
    Passes (steps + others + 1) (t ++ ',' :: ts) (.entries bracket) := by
  intro fuel brackets cs hcs
  have hends := endsNumber_cons (c := ',') (by decide) (ts ++ cs)
  have hfuel : fuel + (steps + others + 1) = fuel + others + 1 + steps := by omega
  rw [List.append_assoc, List.cons_append, hfuel, h (fuel + others + 1) brackets _ hends,
    skipOn_comma, hothers fuel brackets cs hcs]

/-- Passing over a phrase takes at most two steps for each of its characters. -/
theorem Derives.passes (h : Derives phrase t) :
    ∃ steps ≤ 2 * t.length, Passes steps t phrase := by
  induction h with
  | @word w hmem =>
    refine ⟨1, ?_, passes_word hmem⟩
    simp only [List.mem_cons, List.not_mem_nil, or_false] at hmem
    rcases hmem with rfl | rfl | rfl <;> decide
  | number hnumber =>
    refine ⟨1, ?_, passes_number hnumber⟩
    obtain ⟨c, rest, rfl, -⟩ := hnumber.exists_cons
    rw [List.length_cons]
    omega
  | string hquotable =>
    refine ⟨1, ?_, passes_string hquotable⟩
    simp only [List.length_append, List.length_cons]
    omega
  | empty bracket hblanks =>
    refine ⟨2, ?_, passes_empty bracket hblanks⟩
    simp only [List.length_append, List.length_cons]
    omega
  | nested hderives ih =>
    obtain ⟨steps, hle, hpasses⟩ := ih
    refine ⟨steps + 3, ?_, passes_nested hderives hpasses⟩
    simp only [List.length_append, List.length_cons]
    omega
  | item hbefore _ hafter ih =>
    obtain ⟨steps, hle, hpasses⟩ := ih
    refine ⟨steps, ?_, passes_item hbefore hpasses hafter⟩
    simp only [List.length_append]
    omega
  | member hbeforeKey hkey hafterKey hbefore _ hafter ih =>
    obtain ⟨steps, hle, hpasses⟩ := ih
    refine ⟨steps, ?_, passes_member hbeforeKey hkey hafterKey hbefore hpasses hafter⟩
    simp only [List.length_append, List.length_cons]
    omega
  | @last bracket t _ ih =>
    obtain ⟨steps, hle, hpasses⟩ := ih
    exact ⟨steps, hle, hpasses⟩
  | more _ _ ih ihOthers =>
    obtain ⟨steps, hle, hpasses⟩ := ih
    obtain ⟨others, hleOthers, hpassesOthers⟩ := ihOthers
    refine ⟨steps + others + 1, ?_, passes_more hpasses hpassesOthers⟩
    simp only [List.length_append, List.length_cons]
    omega

theorem skip_append {b v : List Char} {fuel : Nat} (hb : IsBlanks b) (h : Derives .value v)
    (hfuel : 2 * v.length ≤ fuel) (hcs : EndsNumber cs) : skip fuel (b ++ v ++ cs) = .ok cs := by
  obtain ⟨steps, hle, hpasses⟩ := h.passes
  -- No bracket is open behind the value, so what is left of the fuel does not matter.
  have hsplit : fuel + 2 = fuel + 2 - steps + steps := by omega
  rw [skip, List.append_assoc, skipValue_append hb, hsplit, hpasses _ [] cs hcs, skipOn]

end Values
end LegalMoves.Json
