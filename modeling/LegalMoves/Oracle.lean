import LegalMoves.Rule.Cursor

set_option autoImplicit false

namespace LegalMoves

inductive Oracle where
  /-- Nothing ever repeats, and nobody is asked. -/
  | silent
  | asking (repeats : Snapshot → Move → Bool)

namespace Oracle

def repeats : Oracle → Snapshot → Move → Bool
  | silent, _, _ => false
  | asking answer, s, m => answer s m

def allows (o : Oracle) (s : Snapshot) (m : Move) : Bool := !o.repeats s m

/-- The questions that are put to an oracle if these moves are looked at for a snapshot. -/
def questions : Oracle → Snapshot → List Move → List (Snapshot × Move)
  | silent, _, _ => []
  | asking _, s, seen => seen.map fun m => (s, m)

end Oracle

structure Inquiry where
  canMove : Bool
  questions : List (Snapshot × Move)
  deriving DecidableEq

def Inquiry.asked (i : Inquiry) : List Move := i.questions.map Prod.snd

/-- Whether some move of a rule is allowed. The search ends with the first that is. -/
def Rule.canMove (rule : Rule) (o : Oracle) (s : Snapshot) : Traced Inquiry := do
  let c ← rule.cursor s
  let (finding, c) ← c.probe fun t _ m => o.allows t m
  pure ⟨finding.found, o.questions c.snapshot finding.seen⟩

@[simp] theorem Oracle.allows_silent (s : Snapshot) (m : Move) : silent.allows s m = true := rfl

end LegalMoves
