import LegalMoves.Move
import LegalMoves.Trace

set_option autoImplicit false

/-!
Streams of moves that are produced on demand. Between two moves a stream may hold events, which
happen when the next move is asked for. `MoveStream.toList` is what a stream holds in the end; the
laws below say what each operation does to it.
-/
namespace LegalMoves

inductive MoveStream where
  | stop
  | emit (m : Move) (rest : Unit → MoveStream)
  | note (e : Event) (rest : Unit → MoveStream)

namespace MoveStream

variable {α : Type}

def toList : MoveStream → List Move
  | stop => []
  | emit m rest => m :: (rest ()).toList
  | note _ rest => (rest ()).toList

def eventList : MoveStream → List Event
  | stop => []
  | emit _ rest => (rest ()).eventList
  | note e rest => e :: (rest ()).eventList

def ofList : List Move → MoveStream
  | [] => stop
  | m :: ms => emit m fun _ => ofList ms

def append : MoveStream → (Unit → MoveStream) → MoveStream
  | stop, next => next ()
  | emit m rest, next => emit m fun _ => (rest ()).append next
  | note e rest, next => note e fun _ => (rest ()).append next

def notes (events : List Event) (s : MoveStream) : MoveStream :=
  events.foldr (fun e rest => note e fun _ => rest) s

def collect (f : α → List Move) : List α → MoveStream
  | [] => stop
  | x :: xs => (ofList (f x)).append fun _ => collect f xs

def map (f : Move → Move) : MoveStream → MoveStream
  | stop => stop
  | emit m rest => emit (f m) fun _ => (rest ()).map f
  | note e rest => note e fun _ => (rest ()).map f

/-- The same stream, with an event for every move that is drawn from it. -/
def counted (id : String) : MoveStream → MoveStream
  | stop => stop
  | emit m rest => note (.drawn id) fun _ => emit m fun _ => (rest ()).counted id
  | note e rest => note e fun _ => (rest ()).counted id

def pull : MoveStream → Traced (Option (Move × MoveStream))
  | stop => pure none
  | emit m rest => pure (some (m, rest ()))
  | note e rest => do
    Traced.note e
    (rest ()).pull

/-- The stream with its first move at hand. -/
def peek : MoveStream → Traced MoveStream
  | stop => pure stop
  | emit m rest => pure (emit m rest)
  | note e rest => do
    Traced.note e
    (rest ()).peek

def isReady : MoveStream → Bool
  | emit _ _ => true
  | _ => false

def drain : MoveStream → Traced (List Move)
  | stop => pure []
  | emit m rest => do
    let ms ← (rest ()).drain
    pure (m :: ms)
  | note e rest => do
    Traced.note e
    (rest ()).drain

@[simp] theorem toList_ofList (ms : List Move) : (ofList ms).toList = ms := by
  induction ms with
  | nil => rfl
  | cons m ms ih => simp [ofList, toList, ih]

@[simp] theorem eventList_ofList (ms : List Move) : (ofList ms).eventList = [] := by
  induction ms with
  | nil => rfl
  | cons m ms ih => simp [ofList, eventList, ih]

@[simp] theorem toList_append (s : MoveStream) (next : Unit → MoveStream) :
    (s.append next).toList = s.toList ++ (next ()).toList := by
  induction s with
  | stop => rfl
  | emit m rest ih => simp [append, toList, ih]
  | note e rest ih => simp [append, toList, ih]

@[simp] theorem eventList_append (s : MoveStream) (next : Unit → MoveStream) :
    (s.append next).eventList = s.eventList ++ (next ()).eventList := by
  induction s with
  | stop => rfl
  | emit m rest ih => simp [append, eventList, ih]
  | note e rest ih => simp [append, eventList, ih]

@[simp] theorem toList_notes (events : List Event) (s : MoveStream) :
    (notes events s).toList = s.toList := by
  induction events with
  | nil => rfl
  | cons e events ih => simpa [notes, toList] using ih

@[simp] theorem eventList_notes (events : List Event) (s : MoveStream) :
    (notes events s).eventList = events ++ s.eventList := by
  induction events with
  | nil => rfl
  | cons e events ih => simpa [notes, eventList] using ih

theorem ofList_append (xs ys : List Move) :
    ofList (xs ++ ys) = (ofList xs).append fun _ => ofList ys := by
  induction xs with
  | nil => rfl
  | cons m xs ih => simp [ofList, append, ih]

theorem collect_eq_ofList (f : α → List Move) (xs : List α) :
    collect f xs = ofList (xs.flatMap f) := by
  induction xs with
  | nil => rfl
  | cons x xs ih => rw [collect, ih, List.flatMap_cons, ofList_append]

theorem map_ofList (f : Move → Move) (ms : List Move) : (ofList ms).map f = ofList (ms.map f) := by
  induction ms with
  | nil => rfl
  | cons m ms ih => simp [ofList, map, ih]

@[simp] theorem toList_map (f : Move → Move) (s : MoveStream) :
    (s.map f).toList = s.toList.map f := by
  induction s with
  | stop => rfl
  | emit m rest ih => simp [map, toList, ih]
  | note e rest ih => simp [map, toList, ih]

@[simp] theorem toList_counted (id : String) (s : MoveStream) :
    (s.counted id).toList = s.toList := by
  induction s with
  | stop => rfl
  | emit m rest ih => simp [counted, toList, ih]
  | note e rest ih => simp [counted, toList, ih]

@[simp] theorem toList_peek (s : MoveStream) : s.peek.value.toList = s.toList := by
  induction s with
  | stop => rfl
  | emit m rest ih => rfl
  | note e rest ih => simpa [peek, toList] using ih ()

theorem isReady_peek (s : MoveStream) : s.peek.value.isReady = !s.toList.isEmpty := by
  induction s with
  | stop => rfl
  | emit m rest ih => rfl
  | note e rest ih => simpa [peek, toList] using ih ()

theorem peek_map (f : Move → Move) (s : MoveStream) : (s.map f).peek = map f <$> s.peek := by
  induction s with
  | stop => rfl
  | emit m rest ih => rfl
  | note e rest ih => simp [map, peek, ih]

theorem isReady_map (f : Move → Move) (s : MoveStream) : (s.map f).isReady = s.isReady := by
  cases s <;> rfl

theorem toList_of_pull_none {s : MoveStream} (h : s.pull.value = none) : s.toList = [] := by
  induction s with
  | stop => rfl
  | emit m rest ih => simp [pull] at h
  | note e rest ih => exact ih () h

theorem toList_of_pull_some {s rest : MoveStream} {m : Move} (h : s.pull.value = some (m, rest)) :
    s.toList = m :: rest.toList := by
  induction s with
  | stop => simp [pull] at h
  | emit first others ih =>
    have hpair : first = m ∧ others () = rest := by simpa [pull] using h
    obtain ⟨rfl, rfl⟩ := hpair
    rfl
  | note e others ih => exact ih () h

@[simp] theorem value_drain (s : MoveStream) : s.drain.value = s.toList := by
  induction s with
  | stop => rfl
  | emit m rest ih => simp [drain, toList, ih]
  | note e rest ih => simp [drain, toList, ih]

@[simp] theorem events_drain (s : MoveStream) : s.drain.events = s.eventList := by
  induction s with
  | stop => rfl
  | emit m rest ih => simp [drain, eventList, ih]
  | note e rest ih => simp [drain, eventList, ih]

end MoveStream
end LegalMoves
