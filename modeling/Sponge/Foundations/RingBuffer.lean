import Mathlib.Tactic

/-!
# Ring buffers

A ring of `n` cells stores the values of a sliding window of positions: position `i` lives in cell
`i % n`. Two positions of one window of width `n` never share a cell, so filling a range of
positions of the window writes exactly these positions and leaves the others as they were.

## Main definitions

* `RingBuffer.get n cells i d`, `RingBuffer.put n cells i a`: the cell of position `i`
* `RingBuffer.fill n cells f lo k`: the positions `lo, …, lo + k - 1` written in order with `f`

## Main results

* `RingBuffer.mod_inj`: positions of one window that share a cell are equal
* `RingBuffer.get_fill`: reading a position of the window after a fill
-/

namespace RingBuffer

variable {α : Type*} {n : ℕ}

/-- The value in the cell of position `i`. -/
def get (n : ℕ) (cells : List α) (i : ℕ) (d : α) : α :=
  cells.getD (i % n) d

/-- Write the cell of position `i`. -/
def put (n : ℕ) (cells : List α) (i : ℕ) (a : α) : List α :=
  cells.set (i % n) a

/-- Write the `k` positions from `lo` on, in order. -/
def fill (n : ℕ) (cells : List α) (f : ℕ → α) (lo k : ℕ) : List α :=
  (List.range' lo k).foldl (fun cs i => put n cs i (f i)) cells

@[simp] theorem length_put (cells : List α) (i : ℕ) (a : α) :
    (put n cells i a).length = cells.length := by
  simp [put]

theorem fill_zero (cells : List α) (f : ℕ → α) (lo : ℕ) : fill n cells f lo 0 = cells := rfl

theorem fill_succ (cells : List α) (f : ℕ → α) (lo k : ℕ) :
    fill n cells f lo (k + 1) = fill n (put n cells lo (f lo)) f (lo + 1) k := rfl

@[simp] theorem length_fill (cells : List α) (f : ℕ → α) (lo k : ℕ) :
    (fill n cells f lo k).length = cells.length := by
  induction k generalizing cells lo with
  | zero => rfl
  | succ k ih => rw [fill_succ, ih, length_put]

/-- Positions less than a revolution apart that share a cell are equal. -/
theorem mod_inj {i j : ℕ} (h : i % n = j % n) (hij : i < j + n) (hji : j < i + n) : i = j := by
  refine Nat.ModEq.eq_of_abs_lt h ?_
  rw [abs_lt]
  omega

theorem get_put_self (hn : 0 < n) {cells : List α} (hlen : cells.length = n) (i : ℕ) (a d : α) :
    get n (put n cells i a) i d = a := by
  have hlt : i % n < cells.length := by
    rw [hlen]
    exact Nat.mod_lt i hn
  simp [get, put, hlt]

theorem get_put_of_ne (cells : List α) {i j : ℕ} (hne : i % n ≠ j % n) (a d : α) :
    get n (put n cells i a) j d = get n cells j d := by
  simp [get, put, List.getD_eq_getElem?_getD, hne]

/-- Writing what a cell holds changes nothing. -/
theorem put_get (hn : 0 < n) {cells : List α} (hlen : cells.length = n) (i : ℕ) (d : α) :
    put n cells i (get n cells i d) = cells := by
  have hlt : i % n < cells.length := by
    rw [hlen]
    exact Nat.mod_lt i hn
  rw [get, put, List.getD_eq_getElem?_getD, List.getElem?_eq_getElem hlt, Option.getD_some,
    List.set_getElem_self]

/-- Positions a whole capacity apart share a cell. -/
theorem get_add_self (cells : List α) (j : ℕ) (d : α) :
    get n cells (j + n) d = get n cells j d := by
  rw [get, Nat.add_mod_right, get]

/-- **Reading after a fill**: the filled positions of the window hold their new values, the other
positions of the window the old ones. An empty fill may lie anywhere past the base. -/
theorem get_fill (hn : 0 < n) {cells : List α} (hlen : cells.length = n) (f : ℕ → α)
    {b i k j : ℕ} (hlo : b ≤ i) (hhi : i + k ≤ max i (b + n)) (hj : b ≤ j)
    (hj' : j < b + n) (d : α) :
    get n (fill n cells f i k) j d =
      if i ≤ j ∧ j < i + k then f j else get n cells j d := by
  -- induction on the number of writes; the first one is the innermost
  induction k generalizing cells i with
  | zero => rw [fill_zero, if_neg (by omega)]
  | succ k ih =>
    rw [fill_succ, ih (by simpa using hlen) (by omega) (by omega)]
    by_cases hjlo : j = i
    · subst hjlo
      rw [if_neg (by omega), if_pos (by omega), get_put_self hn hlen]
    · -- both positions lie in the window, so they have different cells
      have hne : i % n ≠ j % n := fun h => hjlo (mod_inj h (by omega) (by omega)).symm
      rw [get_put_of_ne cells hne]
      by_cases hin : i + 1 ≤ j ∧ j < i + 1 + k
      · rw [if_pos hin, if_pos (by omega)]
      · rw [if_neg hin, if_neg (by omega)]

end RingBuffer
