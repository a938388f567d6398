set_option autoImplicit false

namespace List

variable {α β κ : Type}

theorem eq_of_take_eq {n : Nat} {xs ys : List α} (h : xs.take n = ys.take n)
    (hlt : ys.length < n) : xs = ys := by
  have hlength := congrArg length h
  rw [length_take, length_take] at hlength
  have hxs : xs.take n = xs := take_of_length_le (by omega)
  have hys : ys.take n = ys := take_of_length_le (by omega)
  rw [← hxs, h, hys]

theorem eq_nil_iff_of_take_eq {n : Nat} {xs ys : List α} (h : xs.take n = ys.take n)
    (hn : 0 < n) : xs = [] ↔ ys = [] := by
  constructor
  · rintro rfl
    exact eq_of_take_eq h.symm hn
  · rintro rfl
    exact eq_of_take_eq h hn

theorem mapM_eq_some_map {f : α → Option β} {g : α → β} {xs : List α}
    (h : ∀ x ∈ xs, f x = some (g x)) : xs.mapM f = some (xs.map g) := by
  induction xs with
  | nil => rfl
  | cons x xs ih =>
    obtain ⟨hx, hxs⟩ := forall_mem_cons.mp h
    rw [mapM_cons, hx, ih hxs]
    rfl

theorem getLast?_filterMap_cons (f : α → Option β) (x : α) (xs : List α) :
    ((x :: xs).filterMap f).getLast? = (xs.filterMap f).getLast?.or (f x) := by
  cases hx : f x with
  | none => simp [hx]
  | some y =>
    rw [filterMap_cons_some hx, getLast?_cons]
    cases (xs.filterMap f).getLast? <;> rfl

theorem lookup_map_snd [BEq κ] (f : α → β) (key : κ) (entries : List (κ × α)) :
    (entries.map fun entry => (entry.1, f entry.2)).lookup key = (entries.lookup key).map f := by
  induction entries with
  | nil => rfl
  | cons entry entries ih =>
    rw [map_cons, lookup_cons, lookup_cons, ih]
    cases key == entry.1 <;> rfl

theorem mem_of_lookup_eq_some [BEq κ] [LawfulBEq κ] {key : κ} {x : α} {entries : List (κ × α)}
    (h : entries.lookup key = some x) : (key, x) ∈ entries := by
  obtain ⟨before, after, hsplit, _⟩ := lookup_eq_some_iff.mp h
  simp [hsplit]

theorem length_le_length_flatMap_cons (x : α) (xss : List (List α)) :
    xss.length ≤ (xss.flatMap (x :: ·)).length := by
  induction xss with
  | nil => exact Nat.le_refl 0
  | cons xs xss ih =>
    rw [flatMap_cons, length_append, length_cons, length_cons]
    omega

end List

theorem Nat.le_ofDigitChars (ds : List Char) (n : Nat) : n ≤ Nat.ofDigitChars 10 ds n := by
  induction ds generalizing n with
  | nil => exact Nat.le_refl n
  | cons d ds ih =>
    rw [Nat.ofDigitChars_cons]
    exact Nat.le_trans (by omega) (ih _)
