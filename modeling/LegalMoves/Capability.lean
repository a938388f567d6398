set_option autoImplicit false

/-!
Capability sets: what state an interpreter has to track for a game. A set is a word of 64 bits, of
which eight have names; the others can be declared by a rule and are kept as they are.
-/
namespace LegalMoves

structure Capabilities where
  bits : UInt64
  deriving DecidableEq, Inhabited, Repr

namespace Capabilities

def empty : Capabilities := ⟨0⟩

def stochastic : Capabilities := ⟨0x1⟩
def hiddenInfo : Capabilities := ⟨0x2⟩
def simultaneous : Capabilities := ⟨0x4⟩
/-- Moves read the origin site of a piece. -/
def fromPositions : Capabilities := ⟨0x8⟩
def repeatPositionalInGame : Capabilities := ⟨0x10⟩
def repeatSituationalInGame : Capabilities := ⟨0x20⟩
def repeatPositionalInTurn : Capabilities := ⟨0x40⟩
def repeatSituationalInTurn : Capabilities := ⟨0x80⟩

def union (a b : Capabilities) : Capabilities := ⟨a.bits ||| b.bits⟩

def inter (a b : Capabilities) : Capabilities := ⟨a.bits &&& b.bits⟩

instance : EmptyCollection Capabilities := ⟨empty⟩
instance : Union Capabilities := ⟨union⟩
instance : Inter Capabilities := ⟨inter⟩

def isEmpty (a : Capabilities) : Bool := a.bits == 0

def contains (a b : Capabilities) : Bool := a.bits &&& b.bits == b.bits

def intersects (a b : Capabilities) : Bool := a.bits &&& b.bits != 0

def repetition : Capabilities :=
  repeatPositionalInGame ∪ repeatSituationalInGame ∪ repeatPositionalInTurn
    ∪ repeatSituationalInTurn

def needsHistory (a : Capabilities) : Bool := a.intersects repetition

def named : List (Capabilities × String) :=
  [(stochastic, "stochastic"), (hiddenInfo, "hidden-info"), (simultaneous, "simultaneous"),
   (fromPositions, "from-positions"), (repeatPositionalInGame, "repeat-positional-game"),
   (repeatSituationalInGame, "repeat-situational-game"),
   (repeatPositionalInTurn, "repeat-positional-turn"),
   (repeatSituationalInTurn, "repeat-situational-turn")]

def unnamed (a : Capabilities) : UInt64 :=
  a.bits &&& ~~~(named.foldl (fun (known : Capabilities) entry => known.union entry.1) ∅).bits

def hexText (word : UInt64) : String := "0x" ++ String.ofList (Nat.toDigits 16 word.toNat)

/-- Names in order, then the unnamed bits as one number, between braces. -/
def text (a : Capabilities) : String :=
  let names := (named.filter fun entry => a.contains entry.1).map Prod.snd
  let extra := if a.unnamed == 0 then [] else [hexText a.unnamed]
  "\x7b" ++ String.intercalate ", " (names ++ extra) ++ "\x7d"

def numeral (a : Capabilities) : String := toString a.bits.toNat

@[ext] theorem ext {a b : Capabilities} (h : a.bits = b.bits) : a = b := by
  cases a; cases b; simp_all

@[simp] theorem bits_union (a b : Capabilities) : (a ∪ b).bits = a.bits ||| b.bits := rfl

@[simp] theorem bits_inter (a b : Capabilities) : (a ∩ b).bits = a.bits &&& b.bits := rfl

@[simp] theorem bits_empty : (∅ : Capabilities).bits = 0 := rfl

@[simp] theorem empty_union (a : Capabilities) : ∅ ∪ a = a := by ext; simp

@[simp] theorem union_empty (a : Capabilities) : a ∪ ∅ = a := by ext; simp

theorem union_assoc (a b c : Capabilities) : a ∪ b ∪ c = a ∪ (b ∪ c) := by
  ext1; simp [UInt64.or_assoc]

@[simp] theorem union_self (a : Capabilities) : a ∪ a = a := by ext1; simp

end Capabilities
end LegalMoves
