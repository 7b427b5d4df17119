/-!
# Bounded queues

A bounded queue holds at most `capacity` items, first in first out. Sending to a full queue is
refused and leaves it unchanged; receiving from an empty one gives nothing. The queue's view is
the list of its items, oldest first.
-/

namespace StepperDrive

set_option autoImplicit false

/-- A first-in first-out queue of at most `capacity` items. -/
structure BoundedQueue (α : Type) where
  /-- The most items the queue holds. -/
  capacity : Nat
  /-- The items, oldest first. -/
  items : List α
  deriving DecidableEq, Repr

namespace BoundedQueue

variable {α : Type}

/-- An empty queue. -/
def empty (capacity : Nat) : BoundedQueue α := ⟨capacity, []⟩

/-- The number of items waiting. -/
def size (q : BoundedQueue α) : Nat := q.items.length

/-- Whether the queue is full. -/
def isFull (q : BoundedQueue α) : Bool := q.capacity ≤ q.items.length

/-- The queue with `a` added last, or `none` when it is full. -/
def trySend (q : BoundedQueue α) (a : α) : Option (BoundedQueue α) :=
  if q.isFull then none else some { q with items := q.items ++ [a] }

/-- The oldest item and the queue without it, or `none` when it is empty. -/
def tryReceive (q : BoundedQueue α) : Option (α × BoundedQueue α) :=
  match q.items with
  | [] => none
  | a :: rest => some (a, { q with items := rest })

theorem trySend_items {q q' : BoundedQueue α} {a : α} (h : q.trySend a = some q') :
    q'.items = q.items ++ [a] := by
  unfold trySend at h
  split at h
  · contradiction
  · cases h; rfl

theorem tryReceive_items {q q' : BoundedQueue α} {a : α} (h : q.tryReceive = some (a, q')) :
    q.items = a :: q'.items := by
  unfold tryReceive at h
  split at h
  · contradiction
  · rename_i b rest hq
    cases h
    simp [hq]

end BoundedQueue

end StepperDrive
