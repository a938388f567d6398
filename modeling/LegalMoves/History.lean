import LegalMoves.Repetition
import LegalMoves.Oracle
import LegalMoves.Snapshot.Hash

set_option autoImplicit false

/-!
Histories of visited states. A history keeps the hashes of the snapshots that were recorded, each
one once, and compares by these hashes alone. What a move leads to is a parameter of the history.
-/
namespace LegalMoves

structure History where
  kind : Repetition
  successor : Snapshot → Move → Snapshot
  seen : List UInt64 := []

namespace History

def hashFor (kind : Repetition) (s : Snapshot) : UInt64 :=
  if kind.isSituational then s.situationHash else s.positionHash

def contains (h : History) (s : Snapshot) : Bool := h.seen.contains (hashFor h.kind s)

def record (h : History) (s : Snapshot) : History :=
  { h with seen := h.seen.insert (hashFor h.kind s) }

def clear (h : History) : History := { h with seen := [] }

def size (h : History) : Nat := h.seen.length

def isEmpty (h : History) : Bool := h.seen.isEmpty

def repeats (h : History) (s : Snapshot) (m : Move) : Bool := h.contains (h.successor s m)

def oracle (h : History) : Oracle := .asking h.repeats

def diagnostic (h : History) : String :=
  "PositionHistory \x7b kind: " ++ h.kind.label ++ ", recorded: " ++ toString h.size ++ ", .. \x7d"

theorem contains_record (h : History) (s t : Snapshot) :
    (h.record s).contains t = true ↔
      hashFor h.kind t = hashFor h.kind s ∨ h.contains t = true := by
  simp [contains, record]

@[simp] theorem contains_clear (h : History) (s : Snapshot) : h.clear.contains s = false := by
  simp [contains, clear]

end History
end LegalMoves
