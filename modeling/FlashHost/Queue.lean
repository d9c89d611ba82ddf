import FlashHost.Operation

/-!
# Queues of operations

A queue only grows at its end: operations run in the order in which they were
added, and none is merged, moved or dropped.
-/

set_option autoImplicit false

namespace FlashHost

structure Queue where
  operations : Array Operation
deriving DecidableEq

namespace Queue

def empty : Queue := ⟨#[]⟩

def toList (queue : Queue) : List Operation :=
  queue.operations.toList

def push (queue : Queue) (operation : Operation) : Queue :=
  ⟨queue.operations.push operation⟩

def extend (queue : Queue) (operations : List Operation) : Queue :=
  operations.foldl push queue

def size (queue : Queue) : Nat :=
  queue.operations.size

def last? (queue : Queue) : Option Operation :=
  queue.operations.back?

def payloadSize (queue : Queue) : Nat :=
  queue.toList.foldr (fun operation size => operation.payloadSize + size) 0

@[simp] theorem toList_empty : empty.toList = [] := rfl

@[simp] theorem toList_push (queue : Queue) (operation : Operation) :
    (queue.push operation).toList = queue.toList ++ [operation] := by
  simp [push, toList]

@[simp] theorem toList_extend (queue : Queue) (operations : List Operation) :
    (queue.extend operations).toList = queue.toList ++ operations := by
  induction operations generalizing queue with
  | nil => simp [extend]
  | cons operation operations ih =>
    have rest := ih (queue.push operation)
    simp only [extend, List.foldl_cons] at rest ⊢
    simp [rest]

end Queue

end FlashHost
