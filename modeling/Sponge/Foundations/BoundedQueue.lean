import Mathlib.Tactic

/-!
# Bounded queues

A queue that holds at most `capacity` elements, first in, first out. Of a list that is put into it,
the queue accepts as much as it has room for; elements leave at the front.

## Main definitions

* `BoundedQueue α capacity`: the elements, oldest first, and the bound on their number
* `BoundedQueue.put`, `BoundedQueue.fitting`: put a list in, and the part of it that is accepted
* `BoundedQueue.pop`, `BoundedQueue.front`: remove elements at the front, and the elements removed

## Main results

* `BoundedQueue.length_fitting`: how much is accepted
* `BoundedQueue.front_append_elems_pop`: what is removed and what stays
-/

/-- At most `capacity` elements, the oldest first. -/
@[ext] structure BoundedQueue (α : Type*) (capacity : ℕ) where
  elems : List α
  length_le : elems.length ≤ capacity

namespace BoundedQueue

variable {α : Type*} {capacity : ℕ}

def empty : BoundedQueue α capacity := ⟨[], Nat.zero_le capacity⟩

@[simp] theorem elems_empty : (empty : BoundedQueue α capacity).elems = [] := rfl

variable (q : BoundedQueue α capacity)

/-- How many more elements the queue takes. -/
def room : ℕ := capacity - q.elems.length

/-- The part of `data` that the queue has room for. -/
def fitting (data : List α) : List α := data.take q.room

theorem length_fitting (data : List α) : (q.fitting data).length = min data.length q.room := by
  rw [fitting, List.length_take, min_comm]

/-- Put in as much of `data` as fits. -/
def put (data : List α) : BoundedQueue α capacity where
  elems := q.elems ++ q.fitting data
  length_le := by
    have hle := q.length_le
    rw [List.length_append, length_fitting, room]
    omega

@[simp] theorem elems_put (data : List α) : (q.put data).elems = q.elems ++ q.fitting data := rfl

/-- The first `n` elements, or all of them when there are fewer. -/
def front (n : ℕ) : List α := q.elems.take n

/-- Remove the first `n` elements, or all of them when there are fewer. -/
def pop (n : ℕ) : BoundedQueue α capacity where
  elems := q.elems.drop n
  length_le := by
    rw [List.length_drop]
    exact (Nat.sub_le _ _).trans q.length_le

@[simp] theorem elems_pop (n : ℕ) : (q.pop n).elems = q.elems.drop n := rfl

/-- What is removed, followed by what stays. -/
theorem front_append_elems_pop (n : ℕ) : q.front n ++ (q.pop n).elems = q.elems :=
  List.take_append_drop n q.elems

/-- A single element goes in and out. -/
theorem pop_put_singleton (x : α) :
    ((empty : BoundedQueue α capacity).put [x]).pop 1 = empty := by
  refine BoundedQueue.ext (List.drop_of_length_le ?_)
  rw [elems_put, elems_empty, List.nil_append, length_fitting]
  exact Nat.min_le_left _ _

end BoundedQueue
