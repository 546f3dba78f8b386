import Mathlib.Tactic

/-!
# Checked arithmetic and accesses

A division by zero and an access out of range have no result in the language that a model
translates. Here they fail, so that a program whose operations are replaced by the checked ones
returns exactly if none of them goes wrong. The rules below remove the checks one by one where they
hold; `Checked.foldlM_eq_ok` does so for a loop.

## Main definitions

* `Checked.Fault`: what can go wrong
* `Checked.mod`, `Checked.read`, `Checked.write`: the operations

## Main results

* `Checked.mod_bind`, `Checked.read_bind`, `Checked.write_bind`: an operation that goes well
* `Checked.foldlM_eq_ok`: a loop each of whose rounds goes well
-/

namespace Checked

inductive Fault where
  | divisionByZero
  | outOfRange
  deriving DecidableEq, Repr

variable {α β σ ι : Type}

/-- The remainder of a division. -/
def mod (a b : ℕ) : Except Fault ℕ :=
  if b = 0 then .error .divisionByZero else .ok (a % b)

/-- The element at an index. -/
def read (xs : List α) (i : ℕ) : Except Fault α :=
  match xs[i]? with
  | some a => .ok a
  | none => .error .outOfRange

/-- The list with the element at an index replaced. -/
def write (xs : List α) (i : ℕ) (a : α) : Except Fault (List α) :=
  if i < xs.length then .ok (xs.set i a) else .error .outOfRange

theorem mod_bind {a b : ℕ} (h : b ≠ 0) (f : ℕ → Except Fault β) : (mod a b >>= f) = f (a % b) := by
  rw [mod, if_neg h]
  rfl

theorem mod_zero_bind (a : ℕ) (f : ℕ → Except Fault β) :
    (mod a 0 >>= f) = .error .divisionByZero := rfl

theorem read_bind {xs : List α} {i : ℕ} (h : i < xs.length) (d : α) (f : α → Except Fault β) :
    (read xs i >>= f) = f (xs.getD i d) := by
  rw [read, List.getD_eq_getElem?_getD, List.getElem?_eq_getElem h]
  rfl

theorem write_bind {xs : List α} {i : ℕ} (h : i < xs.length) (a : α)
    (f : List α → Except Fault β) : (write xs i a >>= f) = f (xs.set i a) := by
  rw [write, if_pos h]
  rfl

/-- **A loop whose rounds all go well**: each returns what the plain round computes and keeps an
invariant. -/
theorem foldlM_eq_ok {f : σ → ι → Except Fault σ} {g : σ → ι → σ} {I : σ → Prop} {is : List ι}
    (hround : ∀ s, ∀ i ∈ is, I s → f s i = .ok (g s i) ∧ I (g s i)) {s : σ} (hs : I s) :
    is.foldlM f s = .ok (is.foldl g s) := by
  induction is generalizing s with
  | nil => rfl
  | cons i is ih =>
    obtain ⟨hok, hI⟩ := hround s i List.mem_cons_self hs
    rw [List.foldlM_cons, hok, List.foldl_cons]
    exact ih (fun s' j hj => hround s' j (List.mem_cons_of_mem i hj)) hI

/-- The first `k` places of a fresh array, written in order. -/
theorem foldl_set_range' (f : ℕ → α) (d : α) (a k m : ℕ) :
    (List.range' a k).foldl (fun xs i => xs.set (i - a) (f i)) (List.replicate (k + m) d) =
      (List.range' a k).map f ++ List.replicate m d := by
  induction k generalizing m with
  | zero => simp
  | succ k ih =>
    -- the last place to be written is the first of those that were left
    have hlen : ((List.range' a k).map f).length = k := by simp
    rw [List.range'_1_concat, List.foldl_append, Nat.add_right_comm, Nat.add_assoc, ih (m + 1),
      List.replicate_succ, List.map_append]
    simp [hlen]

end Checked
