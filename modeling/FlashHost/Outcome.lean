import FlashHost.Event
import FlashHost.Queue

/-!
# Outcomes

The outcome of an activity is its result together with everything that could be
seen of it on the way. Activities in sequence see their events in sequence, and
the first error ends the sequence.
-/

set_option autoImplicit false

namespace FlashHost

/-- A result, and the events that led to it, in order. -/
structure Outcome (α : Type) where
  result : Except Error α
  events : List Event

namespace Outcome

variable {α β : Type}

def pure (value : α) : Outcome α := ⟨.ok value, []⟩

def fail (error : Error) : Outcome α := ⟨.error error, []⟩

def emitAll (events : List Event) : Outcome Unit := ⟨.ok (), events⟩

def emit (event : Event) : Outcome Unit := emitAll [event]

def note (note : Note) : Outcome Unit := emit (.noted note)

/-- The activity with other events before its own. -/
def after (events : List Event) (outcome : Outcome α) : Outcome α :=
  ⟨outcome.result, events ++ outcome.events⟩

def bind (first : Outcome α) (next : α → Outcome β) : Outcome β :=
  match first.result with
  | .ok value => (next value).after first.events
  | .error error => ⟨.error error, first.events⟩

instance : Monad Outcome where
  pure := Outcome.pure
  bind := Outcome.bind

def ofExcept (result : Except Error α) : Outcome α := ⟨result, []⟩

def mapError (f : Error → Error) (outcome : Outcome α) : Outcome α :=
  ⟨outcome.result.mapError f, outcome.events⟩

end Outcome

def Queue.enqueue (queue : Queue) (operation : Operation) : Outcome Queue := do
  Outcome.note (.queued operation)
  return queue.push operation

def Queue.enqueueAll (queue : Queue) : List Operation → Outcome Queue
  | [] => return queue
  | operation :: operations => do
    let queue ← queue.enqueue operation
    queue.enqueueAll operations

end FlashHost
