import LegalMoves.Proofs.NoRepetition
import LegalMoves.Snapshot.Hash
import Mathlib.Algebra.Group.Nat.Defs

set_option autoImplicit false

/-!
What fingerprints keep apart. Mixing in a word is injective in the hash so far and in the word: a
rotation, an exclusive or and a multiplication by an odd number can each be undone. So a common end
of two boards cancels, another owner of one site shows, and so does another mover.
-/
namespace LegalMoves

namespace Hash

/-- The upper five bits go below the others. -/
theorem toNat_turn (h : UInt64) :
    (turn h).toNat = h.toNat % 2 ^ 59 * 2 ^ 5 + h.toNat / 2 ^ 59 := by
  have hlt := h.toNat_lt
  have hupper : h.toNat / 2 ^ 59 < 2 ^ 5 := by omega
  have hor := Nat.shiftLeft_add_eq_or_of_lt hupper (h.toNat % 2 ^ 59)
  have hleft : (h <<< 5).toNat = h.toNat % 2 ^ 59 * 2 ^ 5 := by
    have hshift : h.toNat * 2 ^ 5 % 2 ^ 64 = h.toNat % 2 ^ 59 * 2 ^ 5 := by omega
    rw [UInt64.toNat_shiftLeft, Nat.shiftLeft_eq]
    exact hshift
  have hright : (h >>> 59).toNat = h.toNat / 2 ^ 59 := by
    rw [UInt64.toNat_shiftRight, Nat.shiftRight_eq_div_pow]
    rfl
  rw [Nat.shiftLeft_eq] at hor
  rw [turn, UInt64.toNat_or, hleft, hright, hor]

theorem toNat_eq_of_turn (h : UInt64) :
    h.toNat = (turn h).toNat % 2 ^ 5 * 2 ^ 59 + (turn h).toNat / 2 ^ 5 := by
  have hlt := h.toNat_lt
  have hlower := Nat.mod_lt h.toNat (show 0 < 2 ^ 59 by decide)
  rw [toNat_turn]
  omega

theorem turn_injective {h k : UInt64} (heq : turn h = turn k) : h = k := by
  have hsame : h.toNat = k.toNat := by
    rw [toNat_eq_of_turn h, heq, ← toNat_eq_of_turn k]
  exact UInt64.toNat_inj.mp hsame

/-- The number that `factor` has to be multiplied by to give one, modulo `2 ^ 64`. -/
def factorInverse : UInt64 := 0x2040003d780970bd

theorem factor_mul_inverse : factor * factorInverse = 1 := by decide

theorem mul_factor_injective {h k : UInt64} (heq : h * factor = k * factor) : h = k := by
  have hundone := congrArg (· * factorInverse) heq
  simpa only [UInt64.mul_assoc, factor_mul_inverse, UInt64.mul_one] using hundone

variable {h k v w : UInt64} {words : List UInt64}

theorem mix_left_inj : mix h w = mix k w ↔ h = k := by
  constructor
  · intro heq
    have hturned : turn h = turn k := (UInt64.xor_left_inj w).mp (mul_factor_injective heq)
    exact turn_injective hturned
  · rintro rfl
    rfl

theorem mix_right_inj : mix h v = mix h w ↔ v = w := by
  constructor
  · intro heq
    exact (UInt64.xor_right_inj (turn h)).mp (mul_factor_injective heq)
  · rintro rfl
    rfl

/-- Words that are mixed in on both sides take nothing away, by induction on them. -/
theorem foldl_mix_inj : words.foldl mix h = words.foldl mix k ↔ h = k := by
  induction words generalizing h k with
  | nil => rfl
  | cons w words ih => rw [List.foldl_cons, List.foldl_cons, ih, mix_left_inj]

theorem ofWords_append_inj {xs ys : List UInt64} :
    ofWords (xs ++ words) = ofWords (ys ++ words) ↔ ofWords xs = ofWords ys := by
  rw [ofWords_append, ofWords_append, foldl_mix_inj]

end Hash

namespace Snapshot

def extend (s : Snapshot) (rest : Array (Option Player)) : Snapshot :=
  { s with board := s.board ++ rest }

variable {s t : Snapshot}

theorem positionHash_extend_inj (rest : Array (Option Player)) :
    (s.extend rest).positionHash = (t.extend rest).positionHash ↔
      s.positionHash = t.positionHash := by
  simp only [positionHash, extend, Array.toList_append, boardWords_append, Hash.ofWords_append_inj]

/-- The sites before and after an owned site, which no put on that site touches. -/
theorem exists_board_put {site : Site} {p : Player} (h : s.owner site = some p) :
    ∃ before after, s.board.toList = before ++ some p :: after ∧
      ∀ o, (s.put site o).board.toList = before ++ o :: after := by
  have hread : s.board[site.toNat]? = some (some p) := Option.join_eq_some_iff.mp h
  obtain ⟨hlt, hget⟩ := Array.getElem?_eq_some_iff.mp hread
  have hlist : site.toNat < s.board.toList.length := by rwa [Array.length_toList]
  refine ⟨s.board.toList.take site.toNat, s.board.toList.drop (site.toNat + 1), ?_, fun o => ?_⟩
  · rw [← hget, ← Array.getElem_toList hlt, ← List.drop_eq_getElem_cons, List.take_append_drop]
  · rw [put, Array.toList_setIfInBounds, List.set_eq_take_append_cons_drop, if_pos hlist]

/-- Both boards give as many words, and these differ in the owner's word alone. -/
theorem positionHash_put_ne {site : Site} {p q : Player} (h : s.owner site = some p) (hne : q ≠ p) :
    (s.put site (some q)).positionHash ≠ s.positionHash := by
  obtain ⟨before, after, hboard, hput⟩ := exists_board_put h
  intro heq
  rw [positionHash, positionHash, hput, hboard] at heq
  simp only [boardWords, List.flatMap_append, List.flatMap_cons, ownerWords, ← List.append_assoc,
    Hash.ofWords_append_inj] at heq
  rw [Hash.ofWords_append, Hash.ofWords_append] at heq
  have hword : q.id.toUInt64 = p.id.toUInt64 := Hash.mix_right_inj.mp heq
  have hid : q.id = p.id := UInt8.toUInt64_inj.mp hword
  exact hne (congrArg Player.mk hid)

theorem situationHash_inj_of_mover (h : s.mover = t.mover) :
    s.situationHash = t.situationHash ↔ s.positionHash = t.positionHash := by
  rw [situationHash, situationHash, h, Hash.mix_left_inj]

theorem situationHash_inj_of_position (h : s.positionHash = t.positionHash) :
    s.situationHash = t.situationHash ↔ s.mover = t.mover := by
  rw [situationHash, situationHash, h, Hash.mix_right_inj, UInt8.toUInt64_inj]
  exact ⟨fun hid => congrArg Player.mk hid, fun hmover => congrArg Player.id hmover⟩

theorem situationHash_put_ne {site : Site} {p q : Player} (h : s.owner site = some p)
    (hne : q ≠ p) : (s.put site (some q)).situationHash ≠ s.situationHash := by
  have hmover : (s.put site (some q)).mover = s.mover := rfl
  intro heq
  exact positionHash_put_ne h hne ((situationHash_inj_of_mover hmover).mp heq)

end Snapshot

namespace History

variable {situational positional : Repetition} {calls : List Call} {t : Snapshot}

theorem contains_run_of_mover (hsituational : situational.isSituational = true)
    (hpositional : positional.isSituational = false)
    (successor successor' : Snapshot → Move → Snapshot)
    (hmover : ∀ r, RecordedSinceClear calls r → r.mover = t.mover) :
    ((start situational successor).run calls).contains t =
      ((start positional successor').run calls).contains t := by
  rw [Bool.eq_iff_iff, contains_run_iff, contains_run_iff]
  refine exists_congr fun r => and_congr_right fun hr => ?_
  have hsame := Snapshot.situationHash_inj_of_mover (hmover r hr).symm
  simpa [hashFor, hsituational, hpositional] using hsame

end History

namespace Snapshot

/-- Fingerprints of any two snapshots, of whatever sizes. The same sites after both boards change
nothing in whether they agree; another owner of an owned site changes both fingerprints; and where
the positions agree or the movers do, the situations agree just when the others do as well. So
histories that have seen the same calls answer alike, with or without the mover, about a snapshot
whose mover is that of all that is recorded. -/
theorem hashes_tell_apart (s t : Snapshot) :
    (∀ rest : Array (Option Player),
      (s.extend rest).positionHash = (t.extend rest).positionHash ↔
        s.positionHash = t.positionHash) ∧
    (∀ (site : Site) (p q : Player), s.owner site = some p → q ≠ p →
      (s.put site (some q)).positionHash ≠ s.positionHash ∧
        (s.put site (some q)).situationHash ≠ s.situationHash) ∧
    (s.positionHash = t.positionHash →
      (s.situationHash = t.situationHash ↔ s.mover = t.mover)) ∧
    (s.mover = t.mover →
      (s.situationHash = t.situationHash ↔ s.positionHash = t.positionHash)) ∧
    ∀ (situational positional : Repetition) (successor successor' : Snapshot → Move → Snapshot)
      (calls : List History.Call), situational.isSituational = true →
      positional.isSituational = false →
      (∀ r, History.RecordedSinceClear calls r → r.mover = t.mover) →
      ((History.start situational successor).run calls).contains t =
        ((History.start positional successor').run calls).contains t := by
  refine ⟨positionHash_extend_inj, fun site p q howner hne => ?_, situationHash_inj_of_position,
    situationHash_inj_of_mover, fun situational positional successor successor' calls => ?_⟩
  · exact ⟨positionHash_put_ne howner hne, situationHash_put_ne howner hne⟩
  · exact fun hs hp hmover => History.contains_run_of_mover hs hp successor successor' hmover

def oneEach : Snapshot :=
  { Compiled.oneLeft with board := #[some ⟨0⟩, some ⟨1⟩] }

def acrossTurns : List History.Call :=
  [.record (oneEach.withMover ⟨1⟩), .clear, .record oneEach]

theorem hashes_tell_apart_oneEach :
    oneEach.owner ⟨1⟩ = some ⟨1⟩ ∧
      (oneEach.put ⟨1⟩ (some ⟨0⟩)).positionHash ≠ oneEach.positionHash ∧
      (oneEach.put ⟨1⟩ (some ⟨0⟩)).situationHash ≠ oneEach.situationHash ∧
      (oneEach.put ⟨1⟩ none).situationHash ≠ oneEach.situationHash ∧
      (oneEach.withMover ⟨1⟩).situationHash ≠ oneEach.situationHash ∧
      ((History.start .situationalInTurn play).run acrossTurns).contains oneEach =
        ((History.start .positionalInGame play).run acrossTurns).contains oneEach := by
  have howner : oneEach.owner ⟨1⟩ = some ⟨1⟩ := by decide
  have hemptied : (oneEach.put ⟨1⟩ none).positionHash ≠ oneEach.positionHash := by decide
  have hsince : ∀ r, History.RecordedSinceClear acrossTurns r → r.mover = oneEach.mover := by
    intro r hr
    rcases History.recordedSinceClear_concat.mp
      (show History.RecordedSinceClear ([_, .clear] ++ [_]) r from hr) with hlast | ⟨-, hearlier⟩
    · exact congrArg mover (History.Call.record.inj hlast).symm
    · rcases History.recordedSinceClear_concat.mp
        (show History.RecordedSinceClear ([_] ++ [.clear]) r from hearlier) with hclear | ⟨hne, -⟩
      · cases hclear
      · exact absurd rfl hne
  obtain ⟨-, -, -, hsameMover, -⟩ := hashes_tell_apart (oneEach.put ⟨1⟩ none) oneEach
  obtain ⟨-, -, hsamePosition, -, hhistories⟩ :=
    hashes_tell_apart (oneEach.withMover ⟨1⟩) oneEach
  obtain ⟨-, hput, -⟩ := hashes_tell_apart oneEach oneEach
  obtain ⟨hposition, hsituation⟩ := hput ⟨1⟩ ⟨1⟩ ⟨0⟩ howner (by decide)
  refine ⟨howner, hposition, hsituation, ?_, ?_, hhistories _ _ _ _ _ rfl rfl hsince⟩
  · exact fun heq => hemptied ((hsameMover rfl).mp heq)
  · exact fun heq => absurd ((hsamePosition rfl).mp heq) (by decide)

end Snapshot
end LegalMoves
