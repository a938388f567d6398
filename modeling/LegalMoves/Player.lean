set_option autoImplicit false

namespace LegalMoves

structure Player where
  id : UInt8
  deriving DecidableEq, Inhabited, Repr

namespace Player

def ofNat (n : Nat) : Player := ⟨UInt8.ofNat n⟩

def toNat (p : Player) : Nat := p.id.toNat

/-- The player who moves after `p` when `players` players take turns. A count of zero counts as one.
-/
def next (p : Player) (players : Nat) : Player := ofNat ((p.toNat + 1) % max players 1)

/-- The players of a game for `players` players; the count is taken modulo `2 ^ 8`. -/
def all (players : Nat) : List Player := (List.range (players % UInt8.size)).map ofNat

def numeral (p : Player) : String := toString p.toNat

def text (p : Player) : String := "P" ++ p.numeral

theorem toNat_lt (p : Player) : p.toNat < UInt8.size := p.id.toNat_lt_size

theorem toNat_ofNat (n : Nat) : (ofNat n).toNat = n % UInt8.size := UInt8.toNat_ofNat'

@[simp] theorem ofNat_toNat (p : Player) : ofNat p.toNat = p := by
  cases p; simp [ofNat, toNat]

theorem toNat_injective {p q : Player} (h : p.toNat = q.toNat) : p = q := by
  rw [← ofNat_toNat p, h, ofNat_toNat]

end Player
end LegalMoves
