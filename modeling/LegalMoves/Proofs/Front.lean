import LegalMoves.Cursor

set_option autoImplicit false

namespace LegalMoves
namespace MoveStream

variable {n : Nat} {s t : MoveStream}

/-- A stream up to its `n`-th move. A stream with fewer moves is kept with all events at its end. -/
def cut : MoveStream → Nat → MoveStream
  | _, 0 => stop
  | stop, _ + 1 => stop
  | emit m rest, n + 1 => emit m fun _ => (rest ()).cut n
  | note e rest, n + 1 => note e fun _ => (rest ()).cut (n + 1)

@[simp] theorem cut_zero (s : MoveStream) : s.cut 0 = stop := by cases s <;> rfl

@[simp] theorem toList_cut (s : MoveStream) (n : Nat) : (s.cut n).toList = s.toList.take n := by
  induction s generalizing n with
  | stop => cases n <;> simp [cut, toList]
  | emit m rest ih =>
    cases n with
    | zero => rfl
    | succ n => simp [cut, toList, ih]
  | note e rest ih =>
    cases n with
    | zero => rfl
    | succ n => simpa [cut, toList] using ih () (n + 1)

theorem eventList_cut_sublist (s : MoveStream) (n : Nat) :
    (s.cut n).eventList.Sublist s.eventList := by
  induction s generalizing n with
  | stop => cases n <;> simp [cut, eventList]
  | emit m rest ih =>
    cases n with
    | zero => exact List.nil_sublist _
    | succ n => exact ih () n
  | note e rest ih =>
    cases n with
    | zero => exact List.nil_sublist _
    | succ n => exact (ih () (n + 1)).cons_cons e

theorem cut_of_length_lt (h : s.toList.length < n) : s.cut n = s := by
  induction s generalizing n with
  | stop => cases n <;> rfl
  | emit m rest ih =>
    cases n with
    | zero => omega
    | succ n =>
      have hrest : (rest ()).toList.length < n := by simpa [toList] using h
      simp only [cut, ih () hrest]
  | note e rest ih =>
    cases n with
    | zero => omega
    | succ n =>
      have hrest := ih () h
      simp only [cut, hrest]

theorem cut_cut_of_le {m : Nat} (h : m ≤ n) (s : MoveStream) : (s.cut n).cut m = s.cut m := by
  induction s generalizing m n with
  | stop => cases n <;> rfl
  | emit first rest ih =>
    cases m with
    | zero => simp
    | succ m =>
      obtain ⟨n, rfl⟩ := Nat.exists_eq_add_one_of_ne_zero (Nat.ne_zero_of_lt h)
      have hrest := ih () (Nat.le_of_succ_le_succ h)
      simp only [cut, hrest]
  | note e rest ih =>
    cases m with
    | zero => simp
    | succ m =>
      obtain ⟨n, rfl⟩ := Nat.exists_eq_add_one_of_ne_zero (Nat.ne_zero_of_lt h)
      have hrest := ih () h
      simp only [cut, hrest]

theorem cut_append_of_le (h : n ≤ s.toList.length) (next : Unit → MoveStream) :
    (s.append next).cut n = s.cut n := by
  induction s generalizing n with
  | stop =>
    obtain rfl : n = 0 := by simpa [toList] using h
    simp
  | emit m rest ih =>
    cases n with
    | zero => simp
    | succ n =>
      have hrest : n ≤ (rest ()).toList.length := by simpa [toList] using h
      simp only [append, cut, ih () hrest]
  | note e rest ih =>
    cases n with
    | zero => simp
    | succ n =>
      have hrest := ih () h
      simp only [append, cut, hrest]

theorem cut_append_of_lt (h : s.toList.length < n) (next : Unit → MoveStream) :
    (s.append next).cut n = s.append fun _ => (next ()).cut (n - s.toList.length) := by
  induction s generalizing n with
  | stop => rfl
  | emit m rest ih =>
    cases n with
    | zero => omega
    | succ n =>
      have hrest : (rest ()).toList.length < n := by simpa [toList] using h
      simp only [append, cut, ih () hrest, toList, List.length_cons, Nat.add_sub_add_right]
  | note e rest ih =>
    cases n with
    | zero => omega
    | succ n =>
      have hrest := ih () h
      simp only [append, cut, hrest, toList]

theorem cut_map (f : Move → Move) (s : MoveStream) (n : Nat) :
    (s.map f).cut n = (s.cut n).map f := by
  induction s generalizing n with
  | stop => cases n <;> rfl
  | emit m rest ih => cases n <;> simp [map, cut, ih]
  | note e rest ih => cases n <;> simp [map, cut, ih]

theorem cut_counted (id : String) (s : MoveStream) (n : Nat) :
    (s.counted id).cut n = (s.cut n).counted id := by
  induction s generalizing n with
  | stop => cases n <;> rfl
  | emit m rest ih => cases n <;> simp [counted, cut, ih]
  | note e rest ih => cases n <;> simp [counted, cut, ih]

@[simp] theorem eventList_map (f : Move → Move) (s : MoveStream) :
    (s.map f).eventList = s.eventList := by
  induction s with
  | stop => rfl
  | emit m rest ih => simp [map, eventList, ih]
  | note e rest ih => simp [map, eventList, ih]

/-- Counting adds one event for each move. -/
theorem eventList_counted_perm (id : String) (s : MoveStream) :
    (s.counted id).eventList.Perm
      (s.eventList ++ List.replicate s.toList.length (.drawn id)) := by
  induction s with
  | stop => exact List.Perm.refl _
  | emit m rest ih =>
    have hrest := (ih ()).cons (Event.drawn id)
    exact hrest.trans List.perm_middle.symm
  | note e rest ih => exact (ih ()).cons e

theorem notes_append (xs ys : List Event) (s : MoveStream) :
    notes (xs ++ ys) s = notes xs (notes ys s) := by
  simp [notes]

theorem append_notes (events : List Event) (s : MoveStream) (next : Unit → MoveStream) :
    (notes events s).append next = notes events (s.append next) := by
  induction events with
  | nil => rfl
  | cons e events ih => exact congrArg (fun later => note e fun _ => later) ih

theorem map_notes (f : Move → Move) (events : List Event) (s : MoveStream) :
    (notes events s).map f = notes events (s.map f) := by
  induction events with
  | nil => rfl
  | cons e events ih => exact congrArg (fun later => note e fun _ => later) ih

theorem counted_notes (id : String) (events : List Event) (s : MoveStream) :
    (notes events s).counted id = notes events (s.counted id) := by
  induction events with
  | nil => rfl
  | cons e events ih => exact congrArg (fun later => note e fun _ => later) ih

/-- A peeked move stays where it is: the events of looking for it and then the stream that is left
make up the stream as it was. -/
theorem notes_peek (s : MoveStream) : notes s.peek.events s.peek.value = s := by
  induction s with
  | stop => rfl
  | emit m rest ih => rfl
  | note e rest ih => exact congrArg (fun later => note e fun _ => later) (ih ())

theorem notes_peek_of_nil (h : s.toList = []) (next : Unit → MoveStream) :
    notes s.peek.events (next ()) = s.append next := by
  induction s with
  | stop => rfl
  | emit m rest ih => simp [toList] at h
  | note e rest ih => exact congrArg (fun later => note e fun _ => later) (ih () h)

end MoveStream

def Finding.map (f : Move → Move) (x : Finding) : Finding := ⟨x.found, x.seen.map f⟩

namespace Cursor

/-- The place of the first move that a search wants; the number of moves if it wants none. The first
list holds the moves that were looked at before, the latest first. -/
def firstHit (wanted : List Move → Move → Bool) : List Move → List Move → Nat
  | _, [] => 0
  | shown, m :: ms => if wanted shown m then 0 else firstHit wanted (m :: shown) ms + 1

variable (wanted : List Move → Move → Bool)

theorem scan_eq_firstHit (shown ms : List Move) :
    (scan wanted shown ms).1 =
      ⟨decide (firstHit wanted shown ms < ms.length),
        ms.take (firstHit wanted shown ms + 1)⟩ := by
  induction ms generalizing shown with
  | nil => rfl
  | cons m ms ih =>
    by_cases h : wanted shown m = true
    · simp [scan, firstHit, h]
    · simp [scan, firstHit, h, ih]

theorem firstHit_take (shown ms : List Move) (n : Nat) :
    firstHit wanted shown (ms.take n) = min n (firstHit wanted shown ms) := by
  induction ms generalizing shown n with
  | nil => simp [firstHit]
  | cons m ms ih =>
    cases n with
    | zero => simp [firstHit]
    | succ n =>
      by_cases h : wanted shown m = true
      · simp [firstHit, h]
      · simp [firstHit, h, ih, Nat.add_min_add_right]

def look (wanted : List Move → Move → Bool) (shown : List Move) (s : MoveStream) :
    Traced Finding := do
  let (finding, _) ← search wanted shown s
  pure finding

theorem value_look (shown : List Move) (s : MoveStream) :
    (look wanted shown s).value =
      ⟨decide (firstHit wanted shown s.toList < s.toList.length),
        s.toList.take (firstHit wanted shown s.toList + 1)⟩ := by
  rw [← scan_eq_firstHit, ← (search_eq_scan wanted shown s).1]
  rfl

theorem look_notes (shown : List Move) (events : List Event) (s : MoveStream) :
    look wanted shown (.notes events s) =
      ⟨(look wanted shown s).value, events ++ (look wanted shown s).events⟩ := by
  induction events with
  | nil => rfl
  | cons e events ih =>
    have hnote : look wanted shown (.notes (e :: events) s) =
        ⟨(look wanted shown (.notes events s)).value,
          e :: (look wanted shown (.notes events s)).events⟩ := rfl
    rw [hnote, ih]
    rfl

theorem look_map {wanted wanted' : List Move → Move → Bool} (f : Move → Move)
    (h : ∀ shown m, wanted' (shown.map f) (f m) = wanted shown m) (shown : List Move)
    (s : MoveStream) :
    look wanted' (shown.map f) (s.map f) =
      Finding.map f <$> look wanted shown s := by
  induction s generalizing shown with
  | stop => rfl
  | emit m rest ih =>
    by_cases hm : wanted shown m = true
    · simp [look, search, MoveStream.map, Finding.map, h, hm]
    · have hothers := congrArg ((fun x : Finding => Finding.mk x.found (f m :: x.seen)) <$> ·)
        (ih () (m :: shown))
      simpa [look, search, MoveStream.map, Finding.map, h, hm] using hothers
  | note e rest ih =>
    have hrest := congrArg (fun x => Traced.note e >>= fun _ => x) (ih () shown)
    simpa [look, search, MoveStream.map, Finding.map] using hrest

theorem events_look (shown : List Move) (s : MoveStream) :
    (look wanted shown s).events = (s.cut (firstHit wanted shown s.toList + 1)).eventList := by
  induction s generalizing shown with
  | stop => rfl
  | emit m rest ih =>
    by_cases h : wanted shown m = true
    · simp [look, search, firstHit, MoveStream.toList, MoveStream.cut, MoveStream.eventList, h]
    · have hrest := ih () (m :: shown)
      simpa [look, search, firstHit, MoveStream.toList, MoveStream.cut, MoveStream.eventList, h]
        using hrest
  | note e rest ih =>
    have hrest := ih () shown
    simpa [look, search, MoveStream.toList, MoveStream.cut, MoveStream.eventList] using hrest

/-- Streams with the same front are the same to a search that ends within it. -/
theorem look_eq_of_cut_eq {n : Nat} {s t : MoveStream} (shown : List Move)
    (h : s.cut n = t.cut n) (hn : firstHit wanted shown s.toList < n) :
    look wanted shown t = look wanted shown s := by
  have hmoves : t.toList.take n = s.toList.take n := by
    rw [← MoveStream.toList_cut, ← MoveStream.toList_cut, h]
  have hhit : firstHit wanted shown t.toList = firstHit wanted shown s.toList := by
    have hs := firstHit_take wanted shown s.toList n
    have ht := firstHit_take wanted shown t.toList n
    rw [hmoves, hs] at ht
    omega
  have hlength : min n t.toList.length = min n s.toList.length := by
    simpa using congrArg List.length hmoves
  have hfound : firstHit wanted shown s.toList < t.toList.length ↔
      firstHit wanted shown s.toList < s.toList.length := by omega
  have hseen : t.toList.take (firstHit wanted shown s.toList + 1) =
      s.toList.take (firstHit wanted shown s.toList + 1) := by
    have hle : firstHit wanted shown s.toList + 1 ≤ n := hn
    rw [← Nat.min_eq_left hle, ← List.take_take, hmoves, List.take_take]
  ext1
  · rw [value_look, value_look, hhit, hseen]
    simp only [hfound]
  · rw [events_look, events_look, hhit, ← MoveStream.cut_cut_of_le hn t, ← h,
      MoveStream.cut_cut_of_le hn s]

end Cursor
end LegalMoves
