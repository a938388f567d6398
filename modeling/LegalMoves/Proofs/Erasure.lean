import LegalMoves.Oracle
import LegalMoves.Proofs.Flow
import LegalMoves.Proofs.Streaming
import Mathlib.Data.List.Basic

set_option autoImplicit false

namespace LegalMoves

/-- The move without what the rules above it add: its kind, origin, target, mover and label. -/
def Move.plain (m : Move) : Move := { m with decision := false, chains := [] }

mutual

/-- The tree without chains and marks. Tables of neighbours and listed moves stay. -/
def Rule.stripped : Rule → Rule
  | .leaf own _ _ => .leaf own {} .absent
  | .compound kind parts _ _ => .compound kind (Rule.strippedEach parts) {} .absent
  | .counted id inner => .counted id inner.stripped

def Rule.strippedEach : List Rule → List Rule
  | [] => []
  | rule :: rules => rule.stripped :: Rule.strippedEach rules

end

def Finding.plain (x : Finding) : Finding := ⟨x.found, x.seen.map Move.plain⟩

def Inquiry.plain (i : Inquiry) : Inquiry :=
  ⟨i.canMove, i.questions.map fun question => (question.1, question.2.plain)⟩

/-- An oracle that does not look at what rules add to a move. -/
def Oracle.Blind (o : Oracle) : Prop :=
  ∀ s m n, Move.plain m = Move.plain n → o.repeats s m = o.repeats s n

theorem Move.plain_comp_stamp (marks : Marks) (chain : Chain) :
    Move.plain ∘ Move.stamp marks chain = Move.plain := rfl

theorem Move.map_plain_stamp (marks : Marks) (chain : Chain) (ms : List Move) :
    (ms.map (stamp marks chain)).map plain = ms.map plain := by
  rw [List.map_map, plain_comp_stamp]

theorem Oracle.plain_questions (o : Oracle) (s : Snapshot) (x : Finding) :
    Inquiry.plain ⟨x.found, o.questions s x.seen⟩ =
      ⟨x.plain.found, o.questions s x.plain.seen⟩ := by
  cases o with
  | silent => rfl
  | asking answer => simp [Inquiry.plain, Finding.plain, questions]

namespace MoveStream

theorem map_map (f g : Move → Move) (s : MoveStream) : (s.map g).map f = s.map (f ∘ g) := by
  induction s with
  | stop => rfl
  | emit m rest ih => simp [map, ih]
  | note e rest ih => simp [map, ih]

theorem map_plain_stamp (marks : Marks) (chain : Chain) (s : MoveStream) :
    (s.map (Move.stamp marks chain)).map Move.plain = s.map Move.plain := by
  rw [map_map, Move.plain_comp_stamp]

theorem map_append (f : Move → Move) (s : MoveStream) (next : Unit → MoveStream) :
    (s.append next).map f = (s.map f).append fun _ => (next ()).map f := by
  induction s with
  | stop => rfl
  | emit m rest ih => simp [map, append, ih]
  | note e rest ih => simp [map, append, ih]

theorem map_counted (f : Move → Move) (id : String) (s : MoveStream) :
    (s.counted id).map f = (s.map f).counted id := by
  induction s with
  | stop => rfl
  | emit m rest ih => simp [map, counted, ih]
  | note e rest ih => simp [map, counted, ih]

end MoveStream

/-- A search that is blind to what rules add meets the same events with and without it. -/
theorem Cursor.look_plain {wanted : Move → Bool}
    (h : ∀ m n, Move.plain m = Move.plain n → wanted m = wanted n) (s : MoveStream) :
    look (fun _ => wanted) [] (s.map Move.plain) =
      Finding.plain <$> look (fun _ => wanted) [] s :=
  look_map Move.plain (fun _ m => h m.plain m rfl) [] s

namespace Rule

variable {rule : Rule} {parts : List Rule} {s : Snapshot}

theorem strippedEach_eq_map (rules : List Rule) : strippedEach rules = rules.map stripped := by
  induction rules with
  | nil => rfl
  | cons rule rules ih => simp [strippedEach, ih]

theorem canMoveTo_eq_probeWith (rule : Rule) (target : Site) (s : Snapshot) :
    rule.canMoveTo target s =
      Finding.found <$> rule.probeWith (fun _ _ m => m.target == target) s := by
  simp [canMoveTo, probe, probeWith]

theorem canMove_eq_probeWith (rule : Rule) (o : Oracle) (s : Snapshot) :
    rule.canMove o s =
      (fun x => ⟨x.found, o.questions s x.seen⟩) <$>
        rule.probeWith (fun t _ m => o.allows t m) s := by
  have hsnapshot := snapshot_cursor rule s
  ext1
  · simp [canMove, probeWith, Cursor.probe, hsnapshot]
  · simp [canMove, probeWith]

theorem map_plain_find?_stripped
    (h : ∀ part ∈ parts, (part.stripped.moves s).map Move.plain = (part.moves s).map Move.plain) :
    ((((parts.map stripped).map (·.moves s)).find? (!·.isEmpty)).getD []).map Move.plain =
      (((parts.map (·.moves s)).find? (!·.isEmpty)).getD []).map Move.plain := by
  induction parts with
  | nil => rfl
  | cons part parts ih =>
    have hpart := h part (by simp)
    have hothers := ih fun other hmem => h other (by simp [hmem])
    have hempty : (part.stripped.moves s).isEmpty = (part.moves s).isEmpty := by
      simpa using congrArg List.isEmpty hpart
    by_cases hnone : (part.moves s).isEmpty = true
    · simpa [hempty, hnone] using hothers
    · simpa [hempty, hnone] using hpart

theorem openAll_stripped
    (h : ∀ part ∈ parts, (part.stripped.flow s).map Move.plain = (part.flow s).map Move.plain) :
    (openAll (parts.map stripped) s).map Move.plain = (openAll parts s).map Move.plain := by
  induction parts with
  | nil => rfl
  | cons part parts ih =>
    have hothers := ih fun other hmem => h other (by simp [hmem])
    rw [List.map_cons, openAll_cons, openAll_cons, MoveStream.map_append, MoveStream.map_append,
      h part (by simp), hothers]

theorem flowFirst_stripped
    (h : ∀ part ∈ parts, (part.stripped.flow s).map Move.plain = (part.flow s).map Move.plain) :
    (flowFirst (parts.map stripped) s).map Move.plain = (flowFirst parts s).map Move.plain := by
  induction parts with
  | nil => rfl
  | cons part parts ih =>
    have hpart := h part (by simp)
    have hothers := ih fun other hmem => h other (by simp [hmem])
    -- Whether a part has a move at all decides which part is preferred.
    have hempty : (part.stripped.flow s).toList = [] ↔ (part.flow s).toList = [] := by
      have hlists := congrArg MoveStream.toList hpart
      rw [MoveStream.toList_map, MoveStream.toList_map] at hlists
      rw [← List.map_eq_nil_iff, hlists, List.map_eq_nil_iff]
    rw [List.map_cons, flowFirst_cons, flowFirst_cons]
    by_cases hnone : (part.flow s).toList = []
    · rw [if_pos (hempty.mpr hnone), if_pos hnone, MoveStream.map_append, MoveStream.map_append,
        hpart, hothers]
    · rw [if_neg (mt hempty.mp hnone), if_neg hnone, hpart]

theorem moves_stripped (rule : Rule) (s : Snapshot) :
    (rule.stripped.moves s).map Move.plain = (rule.moves s).map Move.plain := by
  induction rule using part_induction with
  | leaf own marks chain =>
    rw [stripped, moves_leaf, moves_leaf, Move.map_plain_stamp, Move.map_plain_stamp]
  | compound kind parts marks chain ih =>
    rw [stripped, strippedEach_eq_map]
    cases kind with
    | union =>
      rw [moves_union, moves_union, Move.map_plain_stamp, Move.map_plain_stamp, List.map_flatMap,
        List.map_flatMap, List.flatMap_map]
      exact List.flatMap_congr ih
    | priority =>
      rw [moves_priority, moves_priority, Move.map_plain_stamp, Move.map_plain_stamp]
      exact map_plain_find?_stripped ih
  | counted id inner ih => exact ih

theorem flow_stripped (rule : Rule) (s : Snapshot) :
    (rule.stripped.flow s).map Move.plain = (rule.flow s).map Move.plain := by
  induction rule using part_induction with
  | leaf own marks chain =>
    rw [stripped, flow_leaf, flow_leaf, MoveStream.map_plain_stamp, MoveStream.map_plain_stamp]
  | compound kind parts marks chain ih =>
    rw [stripped, strippedEach_eq_map]
    cases kind with
    | union =>
      rw [flow_union, flow_union, MoveStream.map_plain_stamp, MoveStream.map_plain_stamp]
      exact openAll_stripped ih
    | priority =>
      rw [flow_priority, flow_priority, MoveStream.map_plain_stamp, MoveStream.map_plain_stamp]
      exact flowFirst_stripped ih
  | counted id inner ih =>
    rw [stripped, flow_counted, flow_counted, MoveStream.map, MoveStream.map,
      MoveStream.map_counted, MoveStream.map_counted, ih]

theorem probeWith_stripped (rule : Rule) (wanted : Snapshot → Move → Bool)
    (h : ∀ m n, Move.plain m = Move.plain n → wanted s m = wanted s n) :
    Finding.plain <$> rule.stripped.probeWith (fun t _ m => wanted t m) s =
      Finding.plain <$> rule.probeWith (fun t _ m => wanted t m) s := by
  rw [probeWith_eq_look, probeWith_eq_look, ← Cursor.look_plain h, ← Cursor.look_plain h,
    flow_stripped]

/-- A stripped tree has the moves of the tree, evaluated and streamed, and leads to the same sites.
An oracle that is blind to what rules add to a move is asked the same and gives the same answer. -/
theorem queries_stripped (rule : Rule) (s : Snapshot) :
    (rule.stripped.eval s).value.moves.map Move.plain = (rule.eval s).value.moves.map Move.plain ∧
      (rule.stripped.cursor s).value.remaining.map Move.plain =
        (rule.cursor s).value.remaining.map Move.plain ∧
      (∀ target, rule.stripped.canMoveTo target s = rule.canMoveTo target s) ∧
      ∀ o : Oracle, o.Blind →
        Inquiry.plain <$> rule.stripped.canMove o s = Inquiry.plain <$> rule.canMove o s := by
  refine ⟨moves_stripped rule s, ?_, fun target => ?_, fun o hblind => ?_⟩
  · have hflow := congrArg MoveStream.toList (flow_stripped rule s)
    simpa [flow, Cursor.remaining] using hflow
  · have hprobe := probeWith_stripped (s := s) rule (fun _ m => m.target == target)
      fun m n hplain => congrArg (·.target == target) hplain
    have hfound := congrArg (Finding.found <$> ·) hprobe
    rw [canMoveTo_eq_probeWith, canMoveTo_eq_probeWith]
    simpa [Finding.plain] using hfound
  · have hprobe := probeWith_stripped (s := s) rule o.allows
      fun m n hplain => congrArg (!·) (hblind s m n hplain)
    have hinquiry := congrArg ((fun x => Inquiry.mk x.found (o.questions s x.seen)) <$> ·) hprobe
    rw [canMove_eq_probeWith, canMove_eq_probeWith]
    simpa [o.plain_questions] using hinquiry

theorem queries_stripped_placesOrPass :
    (Oracle.asking fun _ m => m.target == ⟨1⟩).Blind ∧
      (Inquiry.plain <$> placesOrPass.stripped.canMove (.asking fun _ m => m.target == ⟨1⟩)
          { players := 2, board := #[none, none], players_bounds := by decide }).value =
        ⟨true,
          [({ players := 2, board := #[none, none], players_bounds := by decide },
              Move.add ⟨0⟩ ⟨1⟩),
            ({ players := 2, board := #[none, none], players_bounds := by decide },
              Move.add ⟨0⟩ ⟨0⟩)]⟩ := by
  have hblind : (Oracle.asking fun _ m => m.target == ⟨1⟩).Blind := fun _ _ _ hplain =>
    congrArg (·.target == ⟨1⟩) hplain
  have hstripped := (queries_stripped placesOrPass
    { players := 2, board := #[none, none], players_bounds := by decide }).2.2.2 _ hblind
  exact ⟨hblind, (congrArg Traced.value hstripped).trans rfl⟩

end Rule
end LegalMoves
