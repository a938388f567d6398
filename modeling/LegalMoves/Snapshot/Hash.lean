import LegalMoves.Snapshot.Basic

set_option autoImplicit false

/-!
Fingerprints of snapshots: 64-bit words mixed one after the other by a rotation, an exclusive or and
a multiplication. A position is hashed by its owners alone, a situation by owners and mover. The
number of sites is not part of either.
-/
namespace LegalMoves

namespace Hash

def factor : UInt64 := 0x517cc1b727220a95

def turn (h : UInt64) : UInt64 := h <<< 5 ||| h >>> 59

def mix (h word : UInt64) : UInt64 := (turn h ^^^ word) * factor

def ofWords (words : List UInt64) : UInt64 := words.foldl mix 0

theorem ofWords_append (xs ys : List UInt64) : ofWords (xs ++ ys) = ys.foldl mix (ofWords xs) := by
  simp [ofWords]

end Hash

namespace Snapshot

/-- The words for one site: zero if it is empty, else one and the owner. -/
def ownerWords : Option Player → List UInt64
  | none => [0]
  | some p => [1, p.id.toUInt64]

def boardWords (owners : List (Option Player)) : List UInt64 := owners.flatMap ownerWords

def positionHash (s : Snapshot) : UInt64 := Hash.ofWords (boardWords s.board.toList)

def situationHash (s : Snapshot) : UInt64 := Hash.mix s.positionHash s.mover.id.toUInt64

theorem boardWords_append (xs ys : List (Option Player)) :
    boardWords (xs ++ ys) = boardWords xs ++ boardWords ys := by simp [boardWords]

theorem positionHash_congr {s t : Snapshot} (h : s.board = t.board) :
    s.positionHash = t.positionHash := by simp [positionHash, h]

end Snapshot
end LegalMoves
