import Mathlib.Data.List.Basic

/-!
# Queues with a capacity

A queue never holds more than its capacity: the bound is a field. `push` refuses what does not
fit, `pop` takes the item that has been inside longest.
-/

set_option autoImplicit false

namespace Foundations

/-- At most `capacity` items, the oldest one first. -/
structure Fifo (α : Type*) (capacity : ℕ) where
  items : List α
  bound : items.length ≤ capacity
  deriving DecidableEq

namespace Fifo

variable {α : Type*} {capacity : ℕ}

def empty (α : Type*) (capacity : ℕ) : Fifo α capacity := ⟨[], Nat.zero_le _⟩

/-- Put an item behind the others; `none` when the queue is full. -/
def push (q : Fifo α capacity) (a : α) : Option (Fifo α capacity) :=
  if room : q.items.length < capacity then
    some ⟨q.items ++ [a], by rw [List.length_append, List.length_singleton]; omega⟩
  else none

/-- Take the oldest item. -/
def pop (q : Fifo α capacity) : Option (α × Fifo α capacity) :=
  match q with
  | ⟨[], _⟩ => none
  | ⟨a :: rest, bound⟩ => some (a, ⟨rest, Nat.le_of_succ_le bound⟩)

theorem items_of_push {q q' : Fifo α capacity} {a : α} (pushed : q.push a = some q') :
    q'.items = q.items ++ [a] := by
  unfold push at pushed
  split at pushed
  · cases pushed
    rfl
  · cases pushed

theorem push_eq_none_iff (q : Fifo α capacity) (a : α) :
    q.push a = none ↔ q.items.length = capacity := by
  have bound := q.bound
  unfold push
  split
  · rename_i room
    simp only [reduceCtorEq, false_iff]
    omega
  · rename_i full
    simp only [true_iff]
    omega

theorem items_of_pop {q q' : Fifo α capacity} {a : α} (popped : q.pop = some (a, q')) :
    q.items = a :: q'.items := by
  obtain ⟨_ | ⟨b, rest⟩, bound⟩ := q
  · cases popped
  · cases popped
    rfl

end Fifo

end Foundations
