set_option autoImplicit false

/-!
Traces: what counted rules were asked for while a result was worked out. Every operation on rules
returns its result together with the events in the order in which they happen.
-/
namespace LegalMoves

/-- Something that happened at the counted rule with the given name. -/
inductive Event where
  | prepared (id : String)
  | evaluated (id : String)
  | opened (id : String)
  | drawn (id : String)
  deriving DecidableEq, Repr

def Event.id : Event → String
  | .prepared id | .evaluated id | .opened id | .drawn id => id

/-- A result and the events that led to it. -/
structure Traced (α : Type) where
  value : α
  events : List Event := []

namespace Traced

variable {α β : Type}

@[ext] theorem ext {x y : Traced α} (hv : x.value = y.value) (he : x.events = y.events) :
    x = y := by
  cases x; cases y; simp_all

instance : Monad Traced where
  pure a := ⟨a, []⟩
  bind x f := ⟨(f x.value).value, x.events ++ (f x.value).events⟩

def note (e : Event) : Traced Unit := ⟨(), [e]⟩

@[simp] theorem value_pure (a : α) : (pure a : Traced α).value = a := rfl

@[simp] theorem events_pure (a : α) : (pure a : Traced α).events = [] := rfl

@[simp] theorem value_bind (x : Traced α) (f : α → Traced β) :
    (x >>= f).value = (f x.value).value := rfl

@[simp] theorem events_bind (x : Traced α) (f : α → Traced β) :
    (x >>= f).events = x.events ++ (f x.value).events := rfl

@[simp] theorem value_map (f : α → β) (x : Traced α) : (f <$> x).value = f x.value := rfl

@[simp] theorem events_map (f : α → β) (x : Traced α) : (f <$> x).events = x.events :=
  List.append_nil x.events

@[simp] theorem value_note (e : Event) : (note e).value = () := rfl

@[simp] theorem events_note (e : Event) : (note e).events = [e] := rfl

instance : LawfulMonad Traced :=
  LawfulMonad.mk' Traced
    (by intro α x; ext1 <;> simp [Functor.map])
    (by intro α β a f; ext1 <;> simp)
    (by intro α β γ x f g; ext1 <;> simp)

end Traced

structure Tally where
  prepared : Nat := 0
  evaluated : Nat := 0
  opened : Nat := 0
  drawn : Nat := 0
  deriving DecidableEq, Repr

namespace Tally

def add (t : Tally) : Event → Tally
  | .prepared _ => { t with prepared := t.prepared + 1 }
  | .evaluated _ => { t with evaluated := t.evaluated + 1 }
  | .opened _ => { t with opened := t.opened + 1 }
  | .drawn _ => { t with drawn := t.drawn + 1 }

def ofEvents (id : String) (events : List Event) : Tally :=
  ⟨events.count (.prepared id), events.count (.evaluated id), events.count (.opened id),
    events.count (.drawn id)⟩

theorem ofEvents_nil (id : String) : ofEvents id [] = {} := rfl

theorem ofEvents_concat (id : String) (events : List Event) (e : Event) :
    ofEvents id (events ++ [e]) =
      if e.id = id then (ofEvents id events).add e else ofEvents id events := by
  by_cases h : e.id = id
  · subst h
    cases e <;> simp [ofEvents, add, Event.id]
  · cases e <;> simp_all [ofEvents, Event.id]

end Tally

end LegalMoves
