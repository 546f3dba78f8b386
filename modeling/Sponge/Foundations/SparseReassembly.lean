import Mathlib.Tactic
import Mathlib.Order.Interval.Finset.Nat
import Sponge.Foundations.BoundedQueue
import Sponge.Foundations.Reassembly

/-!
# Reassembly with a sparse map

The abstract reassembler. The elements of a sequence that have arrived and still wait for earlier
ones are a finite map from indices to elements, whose keys lie in a window `[base, base + width)`:
everything before the base has left for the output queue. An arriving excerpt is written into the
window, over what is there; then the longest run from the base moves to the queue, as far as the
queue has room, and the window moves along.

## Main definitions

* `SparseMap α width`: a finite map with its window
* `SparseMap.insert`, `SparseMap.run`, `SparseMap.advance`: its operations
* `SparseReassembler α capacity`: a sparse map and the queue it empties into
* `SparseReassembler.push`, `SparseReassembler.read`: an arrival, and a read of the queue

## Main results

* `SparseReassembler.push_next`: with nothing waiting, the next element moves on at once
-/

/-- A finite map to `α`, with its keys in the window `[base, base + width)`. -/
@[ext] structure SparseMap (α : Type*) (width : ℕ) where
  base : ℕ
  get : ℕ → Option α
  get_eq_none : ∀ i, ¬ (base ≤ i ∧ i < base + width) → get i = none

namespace SparseMap

variable {α : Type*} {width : ℕ}

/-- Nothing has arrived. -/
def empty (base : ℕ) : SparseMap α width where
  base := base
  get := fun _ => none
  get_eq_none := fun _ _ => rfl

@[simp] theorem base_empty (n : ℕ) : (empty n : SparseMap α width).base = n := rfl

@[simp] theorem get_empty (n i : ℕ) : (empty n : SparseMap α width).get i = none := rfl

variable (m : SparseMap α width)

/-- The indices in the map. -/
def keys : Finset ℕ :=
  (Finset.Ico m.base (m.base + width)).filter fun i => (m.get i).isSome = true

theorem mem_keys {i : ℕ} : i ∈ m.keys ↔ (m.get i).isSome = true := by
  rw [keys, Finset.mem_filter, Finset.mem_Ico]
  refine and_iff_right_of_imp fun hsome => ?_
  by_contra hout
  rw [m.get_eq_none i hout] at hsome
  cases hsome

def size : ℕ := m.keys.card

/-- The elements `data`, which start at `index`, written over the map within the window. -/
def insert (data : List α) (index : ℕ) : SparseMap α width where
  base := m.base
  get := Reassembly.insert m.get data index m.base (m.base + width)
  get_eq_none := by
    intro i hout
    rw [Reassembly.insert, if_neg fun hin => hout ⟨hin.1, hin.2.1⟩]
    exact m.get_eq_none i hout

/-- The longest run of elements from the base on. -/
def run : List α := Reassembly.contiguous m.get m.base width

/-- Remove the first `n` indices of the window, and move the window past them. -/
def advance (n : ℕ) : SparseMap α width where
  base := m.base + n
  get := fun i => if m.base + n ≤ i then m.get i else none
  get_eq_none := by
    intro i hout
    split_ifs with hle
    · exact m.get_eq_none i (by omega)
    · rfl

/-! ## The next element of the sequence -/

section Next

variable (hwidth : 0 < width) (n : ℕ) (x : α)

include hwidth

theorem get_insert_next :
    ((empty n : SparseMap α width).insert [x] n).get = fun i => if i = n then some x else none := by
  funext i
  have hin : (n ≤ i ∧ i < n + width ∧ n ≤ i ∧ i < n + 1) ↔ i = n := by omega
  simp only [insert, Reassembly.insert, base_empty, get_empty, List.length_singleton, hin]
  split_ifs with heq
  · simp [heq]
  · rfl

theorem run_insert_next : ((empty n : SparseMap α width).insert [x] n).run = [x] := by
  obtain ⟨k, rfl⟩ := Nat.exists_eq_succ_of_ne_zero hwidth.ne'
  rw [run, get_insert_next hwidth]
  change Reassembly.contiguous _ n (k + 1) = [x]
  rw [Reassembly.contiguous_some (if_pos rfl), Reassembly.contiguous_none (if_neg (by omega))]

theorem advance_insert_next :
    ((empty n : SparseMap α width).insert [x] n).advance 1 = empty (n + 1) := by
  refine SparseMap.ext rfl (funext fun i => ?_)
  simp only [advance, get_insert_next hwidth, get_empty]
  split_ifs with hle heq
  · have hbase : n + 1 ≤ i := hle
    omega
  · rfl
  · rfl

end Next

end SparseMap

/-- What waits for earlier elements, and the queue of what has been put in order. -/
structure SparseReassembler (α : Type*) (capacity : ℕ) where
  waiting : SparseMap α capacity
  output : BoundedQueue α capacity

namespace SparseReassembler

variable {α : Type*} {capacity : ℕ}

def new : SparseReassembler α capacity := ⟨.empty 0, .empty⟩

variable (r : SparseReassembler α capacity)

/-- An excerpt arrives. -/
def push (data : List α) (index : ℕ) : SparseReassembler α capacity :=
  let waiting := r.waiting.insert data index
  { waiting := waiting.advance (r.output.fitting waiting.run).length
    output := r.output.put waiting.run }

/-- Elements are read from the output. -/
def read (len : ℕ) : SparseReassembler α capacity :=
  { r with output := r.output.pop len }

/-- **The next element**, with nothing waiting and nothing in the queue, moves to the queue. -/
theorem push_next (hcapacity : 0 < capacity) (n : ℕ) (x : α) :
    (⟨.empty n, .empty⟩ : SparseReassembler α capacity).push [x] n =
      ⟨.empty (n + 1), BoundedQueue.empty.put [x]⟩ := by
  have hfitting : (BoundedQueue.empty : BoundedQueue α capacity).fitting [x] = [x] :=
    List.take_of_length_le hcapacity
  unfold push
  dsimp only
  rw [SparseMap.run_insert_next hcapacity, hfitting, List.length_singleton,
    SparseMap.advance_insert_next hcapacity]

end SparseReassembler
