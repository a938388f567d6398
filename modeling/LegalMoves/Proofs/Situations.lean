import LegalMoves.Proofs.NoRepetition
import LegalMoves.Proofs.Symmetry

set_option autoImplicit false

/-!
Legal moves depend on the situation alone, on the owners of the sites and the player to move. The
number of players, the player before and the turn change no answer of a tree. A tree in two
snapshots with the same situation is the case of a renaming of players that changes nobody; what a
query hands on to a test or an oracle is the only trace of the snapshot itself.
-/
namespace LegalMoves

structure Situation where
  board : Array (Option Player)
  mover : Player
  deriving DecidableEq

def Snapshot.situation (s : Snapshot) : Situation := ⟨s.board, s.mover⟩

/-- An oracle whose answers depend on the situation and the move. -/
def Oracle.ReadsSituation (o : Oracle) : Prop :=
  ∀ s t m, s.situation = t.situation → o.repeats s m = o.repeats t m

def Cursor.Request.ReadsSituation : Cursor.Request → Prop
  | .probeWith test => ∀ s t, s.situation = t.situation → test s = test t
  | .hasNext | .next | .advance | .take _ | .rest => True

def Cursor.on (t : Snapshot) (c : Cursor) : Cursor := { c with snapshot := t }

/-- A rule answers alike in two snapshots: evaluated, streamed, asked by a script, for a site or for
a move that an oracle allows. Its cursors differ only in the snapshot that they hand on. -/
structure Rule.AlikeIn (s t : Snapshot) (rule : Rule) : Prop where
  eval : rule.eval t = rule.eval s
  cursor : rule.cursor t = Cursor.on t <$> rule.cursor s
  run : ∀ script : List Cursor.Request, (∀ request ∈ script, request.ReadsSituation) →
    (rule.cursor t).value.run script = (rule.cursor s).value.run script
  canMoveTo : ∀ target, rule.canMoveTo target t = rule.canMoveTo target s
  canMove : ∀ o : Oracle, o.ReadsSituation →
    (fun i : Inquiry => (i.canMove, i.asked)) <$> rule.canMove o t =
      (fun i : Inquiry => (i.canMove, i.asked)) <$> rule.canMove o s

namespace Cursor

variable {s t : Snapshot}

theorem hasNext_on (t : Snapshot) (c : Cursor) :
    (c.on t).hasNext = (fun r => (r.1, r.2.on t)) <$> c.hasNext := by
  simp [hasNext, on]

theorem next?_on (t : Snapshot) (c : Cursor) :
    (c.on t).next? = (fun r => (r.1, r.2.on t)) <$> c.next? := by
  cases hpull : c.stream.pull.value with
  | none => ext1 <;> simp [next?, on, hpull]
  | some pulled => ext1 <;> simp [next?, on, hpull]

theorem next_on (t : Snapshot) (c : Cursor) :
    (c.on t).next = (fun r => (r.1, r.2.on t)) <$> c.next := by
  simp [next_eq_map, next?_on]

theorem take_on (t : Snapshot) (count : Nat) (c : Cursor) :
    take count (c.on t) = (fun r => (r.1, r.2.on t)) <$> take count c := by
  induction count generalizing c with
  | zero => rfl
  | succ count ih =>
    rcases hnext : c.next?.value with ⟨_ | m, after⟩
    · ext1 <;> simp [take, next?_on, hnext]
    · ext1 <;> simp [take, next?_on, hnext, ih after]

theorem rest_on (t : Snapshot) (c : Cursor) :
    (c.on t).rest = (fun r => (r.1, r.2.on t)) <$> c.rest := by
  simp [rest, on]

theorem answer_on {request : Request} (h : request.ReadsSituation) {c : Cursor}
    (hst : c.snapshot.situation = t.situation) :
    (c.on t).answer request = (fun r => (r.1, r.2.on t)) <$> c.answer request := by
  cases request with
  | hasNext => simp [answer, hasNext_on]
  | next => simp [answer, next_on]
  | advance => simp [answer, next?_on]
  | take count => simp [answer, take_on]
  | rest => simp [answer, rest_on]
  | probeWith test =>
    have htest : test t = test c.snapshot := (h _ _ hst).symm
    simp [answer, probe, on, htest]

theorem snapshot_answer {request : Request} (h : request.ReadsSituation) (c : Cursor) :
    (c.answer request).value.2.snapshot = c.snapshot :=
  congrArg (fun r => r.value.2.snapshot) (answer_on (t := c.snapshot) h rfl)

theorem run_on {script : List Request} (h : ∀ request ∈ script, request.ReadsSituation)
    {c : Cursor} (hst : c.snapshot.situation = t.situation) :
    (c.on t).run script = c.run script := by
  induction script generalizing c with
  | nil => rfl
  | cons request script ih =>
    have hrequest := h request (by simp)
    have hleft : (c.answer request).value.2.snapshot.situation = t.situation := by
      rw [snapshot_answer hrequest, hst]
    have hothers := ih (fun other hmem => h other (by simp [hmem])) hleft
    ext1 <;> simp [run, answer_on hrequest hst, hothers]

end Cursor

theorem Snapshot.mirrors_refl {s t : Snapshot} (h : s.situation = t.situation) :
    s.Mirrors (Equiv.refl Player) t := by
  have hboard : s.board = t.board := congrArg Situation.board h
  have hmover : s.mover = t.mover := congrArg Situation.mover h
  exact ⟨by simp [hboard], hmover.symm⟩

theorem Move.renamed_refl : Move.renamed (Equiv.refl Player) = id := rfl

theorem Chain.renamedEach_refl {chains : List Chain}
    (h : ∀ chain ∈ chains, chain.renamed (Equiv.refl Player) = chain) :
    renamedEach (Equiv.refl Player) chains = chains := by
  rw [renamedEach_eq_map, List.map_congr_left h, List.map_id']

theorem Leaf.renamed_refl {own : Leaf}
    (h : ∀ other ∈ own.carried, other.renamed (Equiv.refl Player) = other) :
    own.renamed (Equiv.refl Player) = own := by
  cases own with
  | listed ms declared carried =>
    have hcarried : Chain.renamedEach (Equiv.refl Player) carried = carried :=
      Chain.renamedEach_refl h
    rw [renamed, hcarried, Move.renamed_refl, List.map_id]
  | custom rule =>
    obtain ⟨text, moves, stream?, carried⟩ := rule
    have hcarried : Chain.renamedEach (Equiv.refl Player) carried = carried :=
      Chain.renamedEach_refl h
    rw [renamed, hcarried]
  | _ => rfl

theorem Cursor.mirrored_refl (t : Snapshot) : mirrored (Equiv.refl Player) t = on t := by
  funext c
  simp [mirrored, on, Move.renamed_refl, MoveStream.map_id]

theorem MoveSet.renamed_refl : MoveSet.renamed (Equiv.refl Player) = id := by
  funext set
  simp [renamed, Move.renamed_refl]

theorem Finding.map_id : Finding.map id = id := by
  funext x
  simp [Finding.map]

theorem Oracle.map_snd_questions (o : Oracle) (s t : Snapshot) (seen : List Move) :
    (o.questions t seen).map Prod.snd = (o.questions s seen).map Prod.snd := by
  cases o with
  | silent => rfl
  | asking answer => simp [questions]

namespace Rule

variable {rule : Rule} {s t : Snapshot}

theorem renamed_refl (rule : Rule) : rule.renamed (Equiv.refl Player) = rule := by
  induction rule using deep_induction
    (C := fun chain => chain.renamed (Equiv.refl Player) = chain) with
  | leaf own marks chain ihs ih => rw [renamed, Leaf.renamed_refl ihs, ih]
  | compound kind parts marks chain ihs ih =>
    rw [renamed, renamedEach_eq_map, List.map_congr_left ihs, List.map_id', ih]
  | counted id inner ih => rw [renamed, ih]
  | absent => rfl
  | attached id follow ih => rw [Chain.renamed, ih]

/-- The law of renaming for the renaming that changes nobody. -/
theorem alikeIn_of_situation (h : ∀ own ∈ rule.leaves, own.isCustom = false)
    (hst : s.situation = t.situation) : rule.AlikeIn s t := by
  have hleaves : ∀ own ∈ rule.leaves, own.Renames (Equiv.refl Player) s t := fun own hmem =>
    Leaf.renames_of_mirrors (h own hmem) (Snapshot.mirrors_refl hst)
  have heval := eval_renamed hleaves
  have hcursor := cursor_renamed hleaves
  rw [renamed_refl, MoveSet.renamed_refl, id_map] at heval
  rw [renamed_refl, Cursor.mirrored_refl] at hcursor
  refine ⟨heval, hcursor, fun script hscript => ?_, fun target => ?_, fun o ho => ?_⟩
  · have hsnapshot : (rule.cursor s).value.snapshot.situation = t.situation := by
      rw [snapshot_cursor, hst]
    rw [hcursor, Traced.value_map, Cursor.run_on hscript hsnapshot]
  · have htarget := canMoveTo_renamed hleaves target
    rwa [renamed_refl] at htarget
  · have hprobe := probeWith_renamed hleaves (fun u _ m => o.allows u m) (fun u _ m => o.allows u m)
      fun _ m => congrArg (!·) (ho t s m hst.symm)
    rw [renamed_refl, Move.renamed_refl, Finding.map_id, id_map] at hprobe
    rw [canMove_eq_probeWith, canMove_eq_probeWith, hprobe]
    simp [Inquiry.asked, o.map_snd_questions s t]

end Rule

theorem History.readsSituation_oracle (h : History) {next : Situation → Move → Situation}
    (hnext : ∀ s m, (h.successor s m).situation = next s.situation m) :
    h.oracle.ReadsSituation := by
  intro s t m hst
  have hsuccessor : (h.successor s m).situation = (h.successor t m).situation := by
    rw [hnext, hnext, hst]
  have hsame : ¬ h.kind.Distinguishes (h.successor s m) (h.successor t m) := by
    rintro (hboard | ⟨_, hmover⟩)
    · exact hboard (congrArg Situation.board hsuccessor)
    · exact hmover (congrArg Situation.mover hsuccessor)
  have hhash := hashFor_eq_of_not_distinguishes hsame
  rw [History.oracle, Oracle.repeats, Oracle.repeats, History.repeats, History.repeats,
    History.contains, History.contains, hhash]

namespace Rule

/-- In two snapshots with the same owners and the same mover a tree without rules from outside says
the same, whether its steps have their tables or not. So does every rule that it reaches, those of
its chains among them, and every chain that comes with a listed move, and so does a search for a
move that a history allows, if what a move leads to follows from the situation. -/
theorem situation_decides {rule : Rule} (h : ∀ own ∈ rule.leaves, own.isCustom = false)
    {s t : Snapshot} (hst : s.situation = t.situation) {node : Rule} (hreach : rule.Reaches node) :
    node.AlikeIn s t ∧
      (∀ (history : History) (next : Situation → Move → Situation),
        (∀ u m, (history.successor u m).situation = next u.situation m) →
          (fun i : Inquiry => (i.canMove, i.asked)) <$> node.canMove history.oracle t =
            (fun i : Inquiry => (i.canMove, i.asked)) <$> node.canMove history.oracle s) ∧
      ((∀ entry ∈ node.brought, ∀ own ∈ entry.2.leaves, own.isCustom = false) →
        ∀ m place, node.evalChain? m place t = node.evalChain? m place s) := by
  have hleaves : ∀ own ∈ node.leaves, own.isCustom = false := fun own hmem =>
    h own (leaves_subset_of_reaches hreach hmem)
  have halike := alikeIn_of_situation hleaves hst
  refine ⟨halike, fun history next hnext =>
    halike.canMove history.oracle (history.readsSituation_oracle hnext), fun hbrought m place => ?_⟩
  rcases hfollow : node.consequent? m place with _ | follow
  · simp [evalChain?, hfollow]
  · have hchain := forall_leaves_of_consequent? hfollow hleaves hbrought
    simp [evalChain?, hfollow, (alikeIn_of_situation hchain hst).eval]

def placedInTurn (s : Snapshot) (m : Move) : Snapshot :=
  (s.put m.target (some m.mover)).withMover ⟨s.mover.id ^^^ 1⟩

def lateInGame : Snapshot :=
  { players := 5, board := #[some ⟨1⟩, none, none], mover := ⟨1⟩, previous := ⟨4⟩, turn := 90,
    players_bounds := by decide }

def earlyInGame : Snapshot :=
  { Compiled.oneLeft with board := #[some ⟨1⟩, none, none], mover := ⟨1⟩ }

def seenSecondSite : History :=
  (History.start .situationalInGame placedInTurn).record
    (placedInTurn earlyInGame (Move.add ⟨1⟩ ⟨1⟩))

theorem situation_decides_seenSecondSite :
    (∀ own ∈ Compiled.placeOrPass.leaves, own.isCustom = false) ∧
      earlyInGame.situation = lateInGame.situation ∧ earlyInGame ≠ lateInGame ∧
      ((fun i : Inquiry => (i.canMove, i.asked)) <$>
          Compiled.placeOrPass.canMove seenSecondSite.oracle lateInGame).value =
        (true, [Move.add ⟨1⟩ ⟨1⟩, Move.add ⟨1⟩ ⟨2⟩]) := by
  have hleaves : ∀ own ∈ Compiled.placeOrPass.leaves, own.isCustom = false := by
    simp [Compiled.placeOrPass, ofParts, ofLeaf, leaves, Chain.leaves, Leaf.isCustom]
  have hst : earlyInGame.situation = lateInGame.situation := rfl
  obtain ⟨-, hhistory, -⟩ := situation_decides hleaves hst (Reaches.refl Compiled.placeOrPass)
  have hsame := hhistory seenSecondSite
    (fun x m => ⟨x.board.setIfInBounds m.target.toNat (some m.mover), ⟨x.mover.id ^^^ 1⟩⟩)
    fun u m => rfl
  rw [hsame]
  exact ⟨hleaves, hst, by decide, by decide +kernel⟩

end Rule
end LegalMoves
