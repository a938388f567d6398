import LegalMoves.Move
import LegalMoves.Snapshot.Basic

set_option autoImplicit false

namespace LegalMoves
namespace Snapshot

/-- The snapshot after a move: its origin is emptied, its target goes to the mover of the move, and
the player after that one is to move. The turn stays. -/
def play (s : Snapshot) (m : Move) : Snapshot :=
  let lifted := match m.origin with
    | some origin => s.put origin none
    | none => s
  let landed := if m.target.onBoard then lifted.put m.target (some m.mover) else lifted
  landed.withMover (m.mover.next s.players)

end Snapshot
end LegalMoves
