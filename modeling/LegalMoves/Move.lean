import LegalMoves.Error
import LegalMoves.Player
import LegalMoves.Site
import LegalMoves.Text.Quoted

set_option autoImplicit false

/-!
Moves and the sets of moves that rules yield. A move names the chains it triggers by their
identities, so two moves are equal only if they trigger the same chains in the same order.
-/
namespace LegalMoves

structure ChainId where
  number : Nat
  deriving DecidableEq, Inhabited, Repr

inductive MoveKind where
  | add
  | step
  /-- Names the target without changing it. -/
  | select
  | pass
  deriving DecidableEq, Inhabited, Repr

def MoveKind.label : MoveKind → String
  | .add => "Add"
  | .step => "Step"
  | .select => "Select"
  | .pass => "Pass"

/-- A legal action. `chains` lists the follow-ups it triggers, those of the innermost rule first. -/
structure Move where
  kind : MoveKind
  mover : Player
  origin : Option Site
  target : Site
  label : Option String := none
  decision : Bool := false
  chains : List ChainId := []
  deriving DecidableEq, Inhabited, Repr

namespace Move

def add (mover : Player) (target : Site) : Move := ⟨.add, mover, none, target, none, false, []⟩

def step (mover : Player) (origin target : Site) : Move :=
  ⟨.step, mover, some origin, target, none, false, []⟩

def select (mover : Player) (target : Site) : Move :=
  ⟨.select, mover, none, target, none, false, []⟩

def pass (mover : Player) : Move := ⟨.pass, mover, none, .offBoard, none, false, []⟩

def text (m : Move) : String :=
  match m.label, m.kind, m.origin with
  | some label, _, _ => label
  | none, .step, some origin => origin.text ++ "-" ++ m.target.text
  | none, .add, _ => "+" ++ m.target.text
  | none, .pass, _ => "pass"
  | none, _, _ => m.target.text

def optionText : Option String → String
  | none => "None"
  | some text => "Some(" ++ text ++ ")"

def siteDiagnostic (s : Site) : String := "Site(" ++ s.numeral ++ ")"

def diagnostic (m : Move) : String :=
  "Move \x7b kind: " ++ m.kind.label
    ++ ", from: " ++ optionText (m.origin.map siteDiagnostic)
    ++ ", to: " ++ siteDiagnostic m.target
    ++ ", mover: PlayerId(" ++ m.mover.numeral ++ ")"
    ++ ", label: " ++ optionText (m.label.map Text.quoted)
    ++ ", decision: " ++ toString m.decision
    ++ ", consequents: " ++ toString m.chains.length ++ " \x7d"

end Move

structure MoveSet where
  moves : List Move := []
  chain : Option ChainId := none
  deriving DecidableEq, Inhabited, Repr

namespace MoveSet

def count (set : MoveSet) : Nat := set.moves.length

def isEmpty (set : MoveSet) : Bool := set.moves.isEmpty

def push (set : MoveSet) (m : Move) : MoveSet := { set with moves := set.moves ++ [m] }

def extend (set : MoveSet) (ms : List Move) : MoveSet := { set with moves := set.moves ++ ms }

def reverse (set : MoveSet) : MoveSet := { set with moves := set.moves.reverse }

def get (set : MoveSet) (index : Nat) : Except Error Move :=
  match set.moves[index]? with
  | some m => .ok m
  | none => .error (.indexOutOfRange index set.count)

def text (chainText : ChainId → String) (set : MoveSet) : String :=
  String.intercalate ", " (set.moves.map Move.text) ++ (set.chain.map chainText).getD ""

@[simp] theorem count_push (set : MoveSet) (m : Move) : (set.push m).count = set.count + 1 := by
  simp [count, push]

@[simp] theorem count_extend (set : MoveSet) (ms : List Move) :
    (set.extend ms).count = set.count + ms.length := by simp [count, extend]

theorem get_eq_ok_iff {set : MoveSet} {index : Nat} {m : Move} :
    set.get index = .ok m ↔ set.moves[index]? = some m := by
  unfold get
  split <;> simp_all

theorem get_eq_error_iff {set : MoveSet} {index : Nat} :
    set.get index = .error (.indexOutOfRange index set.count) ↔ set.count ≤ index := by
  unfold get
  split
  · rename_i m h
    have := (List.getElem?_eq_some_iff.1 h).1
    simp [count]; omega
  · rename_i h
    simpa [count] using List.getElem?_eq_none_iff.1 h

end MoveSet
end LegalMoves
