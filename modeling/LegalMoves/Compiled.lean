import LegalMoves.Oracle
import LegalMoves.Rule.Analysis

set_option autoImplicit false

namespace LegalMoves

structure Compiled where
  game : Game
  root : Rule
  capabilities : Capabilities
  isStatic : Bool

namespace Compiled

def compile (g : Game) (rule : Rule) : Traced Compiled := do
  let root ← rule.prepare g
  pure ⟨g, root, g.capabilities ∪ root.capabilities, root.isStatic⟩

def needsHistory (c : Compiled) : Bool := c.capabilities.needsHistory

def legalMoves (c : Compiled) (s : Snapshot) : Traced MoveSet := c.root.eval s

def cursor (c : Compiled) (s : Snapshot) : Traced Cursor := c.root.cursor s

def canMoveTo (c : Compiled) (target : Site) (s : Snapshot) : Traced Bool :=
  c.root.canMoveTo target s

/-- Whether the mover has a legal move. The oracle is asked only if the game forbids repetition. -/
def canMove (c : Compiled) (o : Oracle) (s : Snapshot) : Traced Inquiry :=
  c.root.canMove (if c.game.noRepeat.isSome then o else .silent) s

theorem root_compile (g : Game) (rule : Rule) :
    (compile g rule).value.root = rule.prepared g := rfl

theorem capabilities_compile_eq (g : Game) (rule : Rule) :
    (compile g rule).value.capabilities = g.capabilities ∪ (rule.prepared g).capabilities := rfl

theorem canMove_of_noRepeat_none {c : Compiled} (h : c.game.noRepeat = none) (o : Oracle)
    (s : Snapshot) : c.canMove o s = c.root.canMove .silent s := by
  rw [canMove, h]
  rfl

theorem canMove_of_noRepeat_some {c : Compiled} {kind : Repetition}
    (h : c.game.noRepeat = some kind) (o : Oracle) (s : Snapshot) :
    c.canMove o s = c.root.canMove o s := by
  rw [canMove, h]
  rfl

end Compiled
end LegalMoves
