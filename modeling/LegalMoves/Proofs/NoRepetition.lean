import LegalMoves.History
import LegalMoves.Proofs.Existence
import LegalMoves.Proofs.Preparation
import LegalMoves.Snapshot.Play
import Mathlib.Data.List.Induction

set_option autoImplicit false

namespace LegalMoves

/-- Whether two snapshots differ in what a kind of repetition compares: the owners of the sites, and
for a situation also the player to move. -/
def Repetition.Distinguishes (kind : Repetition) (s t : Snapshot) : Prop :=
  s.board ≠ t.board ∨ kind.isSituational = true ∧ s.mover ≠ t.mover

instance (kind : Repetition) (s t : Snapshot) : Decidable (kind.Distinguishes s t) :=
  inferInstanceAs (Decidable (_ ∨ _))

namespace History

inductive Call where
  | record (s : Snapshot)
  | clear
  deriving DecidableEq

def start (kind : Repetition) (successor : Snapshot → Move → Snapshot) : History :=
  { kind, successor }

def perform (h : History) : Call → History
  | .record s => h.record s
  | .clear => h.clear

def run (h : History) (calls : List Call) : History := calls.foldl perform h

/-- Among the calls is one that records the snapshot, and no clear call comes after it. -/
def RecordedSinceClear (calls : List Call) (s : Snapshot) : Prop :=
  ∃ before after, calls = before ++ .record s :: after ∧ .clear ∉ after

variable {kind : Repetition} {successor : Snapshot → Move → Snapshot} {calls : List Call}
  {s t : Snapshot}

theorem hashFor_eq_of_not_distinguishes (h : ¬ kind.Distinguishes s t) :
    hashFor kind s = hashFor kind t := by
  have hboard : s.board = t.board := by
    by_contra hne
    exact h (Or.inl hne)
  have hposition := Snapshot.positionHash_congr hboard
  cases hkind : kind.isSituational with
  | false => simp [hashFor, hkind, hposition]
  | true =>
    have hmover : s.mover = t.mover := by
      by_contra hne
      exact h (Or.inr ⟨hkind, hne⟩)
    simp [hashFor, hkind, Snapshot.situationHash, hposition, hmover]

@[simp] theorem run_nil (h : History) : h.run [] = h := rfl

@[simp] theorem run_concat (h : History) (calls : List Call) (call : Call) :
    h.run (calls ++ [call]) = (h.run calls).perform call := by
  simp [run]

theorem kind_run (h : History) (calls : List Call) : (h.run calls).kind = h.kind := by
  induction calls using List.reverseRecOn with
  | nil => rfl
  | append_singleton calls call ih => cases call <;> simpa [perform, record, clear] using ih

theorem successor_run (h : History) (calls : List Call) : (h.run calls).successor = h.successor := by
  induction calls using List.reverseRecOn with
  | nil => rfl
  | append_singleton calls call ih => cases call <;> simpa [perform, record, clear] using ih

theorem not_recordedSinceClear_nil (s : Snapshot) : ¬ RecordedSinceClear [] s := by
  rintro ⟨before, after, h, -⟩
  simp at h

theorem recordedSinceClear_concat {call : Call} :
    RecordedSinceClear (calls ++ [call]) s ↔
      call = .record s ∨ call ≠ .clear ∧ RecordedSinceClear calls s := by
  constructor
  · rintro ⟨before, after, h, hclear⟩
    rcases List.eq_nil_or_concat after with rfl | ⟨after, last, rfl⟩
    · exact Or.inl (List.cons.inj (List.append_inj' h rfl).2).1
    · have hsplit : calls ++ [call] = (before ++ .record s :: after) ++ [last] := by simpa using h
      obtain ⟨rfl, hlast⟩ := List.append_inj' hsplit rfl
      obtain rfl : call = last := (List.cons.inj hlast).1
      have hcall : call ≠ .clear := fun heq => hclear (by simp [heq])
      exact Or.inr ⟨hcall, before, after, rfl, fun hmem => hclear (by simp [hmem])⟩
  · rintro (rfl | ⟨hcall, before, after, rfl, hclear⟩)
    · exact ⟨calls, [], rfl, by simp⟩
    · refine ⟨before, after ++ [call], by simp, ?_⟩
      simpa [hclear] using hcall.symm

theorem recordedSinceClear_append_records (h : RecordedSinceClear calls s)
    (later : List Snapshot) : RecordedSinceClear (calls ++ later.map .record) s := by
  obtain ⟨before, after, rfl, hclear⟩ := h
  exact ⟨before, after ++ later.map .record, by simp, by simpa using hclear⟩

/-- What a history knows after a run of calls, by induction on the calls from the last one. -/
theorem contains_run_iff :
    ((start kind successor).run calls).contains t = true ↔
      ∃ r, RecordedSinceClear calls r ∧ hashFor kind t = hashFor kind r := by
  induction calls using List.reverseRecOn with
  | nil => simp [start, contains, not_recordedSinceClear_nil]
  | append_singleton calls call ih =>
    simp only [run_concat, recordedSinceClear_concat]
    cases call with
    | clear => simp [perform]
    | record s =>
      rw [perform, contains_record, kind_run, ih]
      constructor
      · rintro (heq | ⟨r, hr, heq⟩)
        · exact ⟨s, Or.inl rfl, heq⟩
        · exact ⟨r, Or.inr ⟨by simp, hr⟩, heq⟩
      · rintro ⟨r, hr | ⟨_, hr⟩, heq⟩
        · obtain rfl : s = r := Call.record.inj hr
          exact Or.inl heq
        · exact Or.inr ⟨r, hr, heq⟩

end History

namespace Compiled

/-- Whether the mover is told that there is a move, by a new history that has seen some calls. -/
def canMoveAfter (c : Compiled) (kind : Repetition) (successor : Snapshot → Move → Snapshot)
    (calls : List History.Call) (s : Snapshot) : Bool :=
  (c.canMove ((History.start kind successor).run calls).oracle s).value.canMove

theorem canMoveAfter_eq_true_iff {c : Compiled} (hgame : c.game.noRepeat ≠ none)
    (hroot : c.root.Faithful) (kind : Repetition) (successor : Snapshot → Move → Snapshot)
    (calls : List History.Call) (s : Snapshot) :
    c.canMoveAfter kind successor calls s = true ↔
      ∃ m ∈ c.root.moves s, ∀ r, History.RecordedSinceClear calls r →
        History.hashFor kind (successor s m) ≠ History.hashFor kind r := by
  obtain ⟨rule, hrule⟩ := Option.ne_none_iff_exists'.mp hgame
  have hasked : c.canMoveAfter kind successor calls s =
      (c.root.canMove ((History.start kind successor).run calls).oracle s).value.canMove := by
    rw [canMoveAfter, canMove_of_noRepeat_some hrule]
  have hfree : ∀ m, ((History.start kind successor).run calls).oracle.repeats s m = false ↔
      ∀ r, History.RecordedSinceClear calls r →
        History.hashFor kind (successor s m) ≠ History.hashFor kind r := by
    intro m
    have hsuccessor := History.successor_run (History.start kind successor) calls
    rw [History.oracle, Oracle.repeats, History.repeats, hsuccessor, ← Bool.not_eq_true,
      History.contains_run_iff]
    simp [History.start]
  rw [hasked, Rule.canMove_eq_true_iff hroot]
  simp only [hfree]

/-- Of a game that forbids repetition, compiled rules and any run of calls: a mover who is told that
there is a move has a legal one whose successor differs from every snapshot recorded since the last
clear call; more records never give a move back; and after a clear call every legal move counts. -/
theorem canMoveAfter_avoids_repetition {g : Game} (hgame : g.noRepeat ≠ none) {rule : Rule}
    (h : ∀ own ∈ rule.customs, own.StreamsEval) (kind : Repetition)
    (successor : Snapshot → Move → Snapshot) (calls : List History.Call) (s : Snapshot) :
    ((compile g rule).value.canMoveAfter kind successor calls s = true →
        ∃ m ∈ ((compile g rule).value.legalMoves s).value.moves,
          ∀ r, History.RecordedSinceClear calls r → kind.Distinguishes (successor s m) r) ∧
      (∀ later : List Snapshot,
        (compile g rule).value.canMoveAfter kind successor (calls ++ later.map .record) s = true →
          (compile g rule).value.canMoveAfter kind successor calls s = true) ∧
      ((compile g rule).value.canMoveAfter kind successor (calls ++ [.clear]) s = true ↔
        ((compile g rule).value.legalMoves s).value.moves ≠ []) := by
  have hroot : (compile g rule).value.root.Faithful :=
    Rule.faithful_prepared g fun own hown => Rule.streamsEval_iff_faithful.mp (h own hown)
  have hanswer := canMoveAfter_eq_true_iff hgame hroot kind successor
  refine ⟨fun hmove => ?_, fun later hmove => ?_, ?_⟩
  · obtain ⟨m, hm, hnew⟩ := (hanswer calls s).mp hmove
    refine ⟨m, hm, fun r hr => ?_⟩
    by_contra hsame
    exact hnew r hr (History.hashFor_eq_of_not_distinguishes hsame)
  · obtain ⟨m, hm, hnew⟩ := (hanswer _ s).mp hmove
    refine (hanswer calls s).mpr ⟨m, hm, fun r hr => hnew r ?_⟩
    exact History.recordedSinceClear_append_records hr later
  · have hnone : ∀ r, ¬ History.RecordedSinceClear (calls ++ [.clear]) r := by
      intro r
      simp [History.recordedSinceClear_concat]
    rw [hanswer]
    constructor
    · rintro ⟨m, hm, -⟩
      exact List.ne_nil_of_mem hm
    · intro hne
      obtain ⟨m, hm⟩ := List.exists_mem_of_ne_nil _ hne
      exact ⟨m, hm, fun r hr => absurd hr (hnone r)⟩

def koGame : Game where
  config := { name := "ko", players := 2, sites := 2, noRepeat := some .positionalInGame }
  faultless := by decide

def placeOrPass : Rule := .ofParts .union [.ofLeaf .place, .ofLeaf .pass]

def oneLeft : Snapshot :=
  { players := 2, board := #[some ⟨1⟩, none], players_bounds := by decide }

def fullTwice : List History.Call :=
  [.record (oneLeft.put ⟨1⟩ (some ⟨0⟩)), .clear, .record (oneLeft.put ⟨1⟩ (some ⟨0⟩))]

example : (compile koGame (.ofLeaf .place)).value.canMoveAfter .positionalInGame Snapshot.play
    fullTwice oneLeft = false := by decide

theorem canMoveAfter_avoids_repetition_koGame :
    koGame.noRepeat ≠ none ∧ (∀ own ∈ placeOrPass.customs, own.StreamsEval) ∧
      (compile koGame placeOrPass).value.canMoveAfter .positionalInGame Snapshot.play fullTwice
        oneLeft = true ∧
      (∃ m ∈ ((compile koGame placeOrPass).value.legalMoves oneLeft).value.moves,
        ∀ r, History.RecordedSinceClear fullTwice r →
          Repetition.positionalInGame.Distinguishes (oneLeft.play m) r) ∧
      (compile koGame placeOrPass).value.canMoveAfter .positionalInGame Snapshot.play
        (fullTwice ++ [.clear]) oneLeft = true := by
  have hgame : koGame.noRepeat ≠ none := by decide
  have hlaw : ∀ own ∈ placeOrPass.customs, own.StreamsEval := by
    simp [placeOrPass, Rule.ofParts, Rule.ofLeaf, Rule.customs, Leaf.isCustom]
  have hmove : (compile koGame placeOrPass).value.canMoveAfter .positionalInGame Snapshot.play
      fullTwice oneLeft = true := by decide
  obtain ⟨hnew, -, hclear⟩ := canMoveAfter_avoids_repetition hgame hlaw .positionalInGame
    Snapshot.play fullTwice oneLeft
  exact ⟨hgame, hlaw, hmove, hnew hmove, hclear.mpr (by decide)⟩

end Compiled
end LegalMoves
