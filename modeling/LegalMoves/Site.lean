set_option autoImplicit false

namespace LegalMoves

structure Site where
  index : UInt32
  deriving DecidableEq, Inhabited, Repr

namespace Site

/-- Target of moves that do not land anywhere. -/
def offBoard : Site := ⟨0xffffffff⟩

def ofNat (n : Nat) : Site := ⟨UInt32.ofNat n⟩

def toNat (s : Site) : Nat := s.index.toNat

def onBoard (s : Site) : Bool := s.index != offBoard.index

instance : LT Site := ⟨fun s t => s.index < t.index⟩

instance (s t : Site) : Decidable (s < t) := inferInstanceAs (Decidable (s.index < t.index))

/-- The index in decimal digits, also for the reserved site. -/
def numeral (s : Site) : String := toString s.toNat

def text (s : Site) : String := if s.onBoard then s.numeral else "off"

theorem toNat_lt (s : Site) : s.toNat < UInt32.size := s.index.toNat_lt_size

theorem toNat_ofNat (n : Nat) : (ofNat n).toNat = n % UInt32.size := UInt32.toNat_ofNat'

theorem toNat_ofNat_of_lt {n : Nat} (h : n < UInt32.size) : (ofNat n).toNat = n := by
  rw [toNat_ofNat, Nat.mod_eq_of_lt h]

@[simp] theorem ofNat_toNat (s : Site) : ofNat s.toNat = s := by
  cases s; simp [ofNat, toNat]

theorem toNat_injective {s t : Site} (h : s.toNat = t.toNat) : s = t := by
  rw [← ofNat_toNat s, h, ofNat_toNat]

theorem toNat_offBoard : offBoard.toNat = UInt32.size - 1 := rfl

theorem lt_iff_toNat_lt {s t : Site} : s < t ↔ s.toNat < t.toNat := Iff.rfl

theorem nodup_of_pairwise_lt {sites : List Site} (h : sites.Pairwise (· < ·)) : sites.Nodup := by
  refine h.imp fun {s t} hlt heq => ?_
  rw [heq, lt_iff_toNat_lt] at hlt
  omega

end Site
end LegalMoves
