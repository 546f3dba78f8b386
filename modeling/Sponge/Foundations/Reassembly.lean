import Mathlib.Tactic
import Mathlib.Data.Fintype.EquivFin

/-!
# Reassembling a sequence from excerpts

The abstract model of reassembly: a partial map `m : ℕ → Option α` holds the elements that have
arrived, by their index in the sequence. An arriving excerpt is inserted into the part of it that a
window admits, the contiguous run from the base of the window is taken out, and the base moves.
Inserting excerpts of one sequence `s` keeps the map a part of `s`, so the runs taken out are
pieces of `s`.

## Main definitions

* `Reassembly.insert m data index lo hi`: the map with `data` written at `index` within `[lo, hi)`
* `Reassembly.contiguous m start n`: the contiguous run of `m` from `start`, cut to `n` elements
* `Reassembly.PartOf m s`: the map holds only elements of `s` at their own index
* `Reassembly.firstMissing c`: the first index that a set of indices leaves out

## Main results

* `Reassembly.PartOf.insert`: inserting an excerpt of `s`
* `Reassembly.PartOf.contiguous_eq`: a run taken from a part of `s` is an excerpt of `s`
* `Reassembly.contiguous_stops`: a run stops only at a missing element or at its bound
-/

namespace Reassembly

variable {α : Type*} {m : ℕ → Option α} {s : List α}

/-- The elements `data`, which start at `index`, written over `m` within `[lo, hi)`. -/
def insert (m : ℕ → Option α) (data : List α) (index lo hi : ℕ) : ℕ → Option α :=
  fun i => if lo ≤ i ∧ i < hi ∧ index ≤ i ∧ i < index + data.length then data[i - index]? else m i

/-- The contiguous run of `m` from `start`, of at most `n` elements. -/
def contiguous (m : ℕ → Option α) : ℕ → ℕ → List α
  | _, 0 => []
  | start, n + 1 =>
    match m start with
    | none => []
    | some a => a :: contiguous m (start + 1) n

/-- The map `m` holds only elements of `s`, each at its own index. -/
def PartOf (m : ℕ → Option α) (s : List α) : Prop :=
  ∀ i a, m i = some a → s[i]? = some a

theorem contiguous_none {start : ℕ} (h : m start = none) (n : ℕ) : contiguous m start n = [] := by
  cases n with
  | zero => rfl
  | succ n => simp [contiguous, h]

theorem contiguous_some {start : ℕ} {a : α} (h : m start = some a) (n : ℕ) :
    contiguous m start (n + 1) = a :: contiguous m (start + 1) n := by
  simp [contiguous, h]

theorem contiguous_eq_nil_iff {start n : ℕ} :
    contiguous m start n = [] ↔ n = 0 ∨ m start = none := by
  cases n with
  | zero => simp [contiguous]
  | succ n =>
    cases h : m start with
    | none => simp [contiguous_none h]
    | some a => simp [contiguous_some h]

theorem length_contiguous_le (m : ℕ → Option α) (start n : ℕ) :
    (contiguous m start n).length ≤ n := by
  induction n generalizing start with
  | zero => simp [contiguous]
  | succ n ih =>
    cases h : m start with
    | none => simp [contiguous_none h]
    | some a => simpa [contiguous_some h] using ih (start + 1)

/-- The elements of a run are those of the map. -/
theorem getElem?_contiguous {start n k : ℕ} (hk : k < (contiguous m start n).length) :
    (contiguous m start n)[k]? = m (start + k) := by
  induction n generalizing start k with
  | zero => simp [contiguous] at hk
  | succ n ih =>
    cases h : m start with
    | none => simp [contiguous_none h] at hk
    | some a =>
      rw [contiguous_some h] at hk ⊢
      cases k with
      | zero => simp [h]
      | succ k =>
        have hk' : k < (contiguous m (start + 1) n).length := by simpa using hk
        rw [List.getElem?_cons_succ, ih hk', show start + 1 + k = start + (k + 1) by omega]

/-- A run stops only at a missing element or at its bound. -/
theorem contiguous_stops (m : ℕ → Option α) (start n : ℕ) :
    (contiguous m start n).length = n ∨ m (start + (contiguous m start n).length) = none := by
  induction n generalizing start with
  | zero => simp [contiguous]
  | succ n ih =>
    cases h : m start with
    | none => simp [contiguous_none h, h]
    | some a =>
      rw [contiguous_some h, List.length_cons]
      rcases ih (start + 1) with hl | hl
      · exact Or.inl (by omega)
      · exact Or.inr (by rw [← hl]; congr 1; omega)

/-- A run up to the first missing element. -/
theorem length_contiguous_eq {start n k : ℕ} (hk : k ≤ n)
    (hsome : ∀ i, i < k → m (start + i) ≠ none) (hnone : m (start + k) = none) :
    (contiguous m start n).length = k := by
  apply le_antisymm
  · by_contra hlt
    have hget := getElem?_contiguous (Nat.lt_of_not_le hlt)
    rw [hnone, List.getElem?_eq_none_iff] at hget
    exact hlt hget
  · rcases contiguous_stops m start n with hfull | hstop
    · rwa [hfull]
    · by_contra hlt
      exact hsome _ (Nat.lt_of_not_le hlt) hstop

/-- Cutting a run is taking a prefix of it. -/
theorem take_contiguous (m : ℕ → Option α) (start n k : ℕ) :
    (contiguous m start n).take k = contiguous m start (min k n) := by
  induction n generalizing start k with
  | zero => simp [contiguous]
  | succ n ih =>
    cases k with
    | zero => simp [contiguous]
    | succ k =>
      rw [Nat.succ_min_succ]
      cases h : m start with
      | none => simp [contiguous_none h]
      | some a => simp [contiguous_some h, ih]

/-- A part of a sequence is a part of its extensions. -/
theorem PartOf.append {t : List α} (h : PartOf m s) : PartOf m (s ++ t) := by
  intro i a hi
  have hs := h i a hi
  obtain ⟨hlt, -⟩ := List.getElem?_eq_some_iff.mp hs
  rw [List.getElem?_append_left hlt, hs]

/-- **Inserting an excerpt** of `s` keeps a part of `s`. -/
theorem PartOf.insert (h : PartOf m s) {data : List α} {index : ℕ} (lo hi : ℕ)
    (hdata : ∀ k, k < data.length → data[k]? = s[index + k]?) :
    PartOf (insert m data index lo hi) s := by
  intro i a hi
  unfold Reassembly.insert at hi
  split_ifs at hi with hc
  · -- an index of the excerpt
    have hk := hdata (i - index) (by omega)
    rw [show index + (i - index) = i by omega] at hk
    rw [← hk, hi]
  · exact h i a hi

/-- **A run taken from a part of `s`** is an excerpt of `s`. -/
theorem PartOf.contiguous_eq (h : PartOf m s) (start n : ℕ) :
    contiguous m start n = (s.drop start).take (contiguous m start n).length := by
  -- element by element, up to the length of the run
  apply List.ext_getElem?
  intro k
  by_cases hk : k < (contiguous m start n).length
  · rw [List.getElem?_take_of_lt hk, List.getElem?_drop]
    have hm := getElem?_contiguous hk
    rw [List.getElem?_eq_getElem hk] at hm ⊢
    exact (h _ _ hm.symm).symm
  · rw [List.getElem?_eq_none (by omega), List.getElem?_eq_none]
    simp only [List.length_take]
    omega

/-! ## Covered indices -/

/-- The first index outside a finite set: the length of the prefix that the set covers. -/
def firstMissing (c : Finset ℕ) : ℕ :=
  Nat.find (Infinite.exists_notMem_finset c)

theorem firstMissing_eq {c : Finset ℕ} {n : ℕ} (hcovered : ∀ i < n, i ∈ c) (hmissing : n ∉ c) :
    firstMissing c = n :=
  (Nat.find_eq_iff _).mpr ⟨hmissing, fun i hi => not_not.mpr (hcovered i hi)⟩

end Reassembly
