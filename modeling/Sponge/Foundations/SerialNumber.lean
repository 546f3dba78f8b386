import Mathlib.Tactic
import Mathlib.Data.Nat.ModEq
import Mathlib.Data.Int.ModEq

/-!
# Serial numbers

A counter is exchanged by its residue modulo `m`, and recovered next to a checkpoint `c`: the
recovered number is the one with the given residue that lies nearest to `c`. Within half a modulus
of the checkpoint the recovery is exact.

## Main definitions

* `SerialNumber.ahead m r c`: the steps from `c` forward to the next number of residue `r`
* `SerialNumber.nearest m r c`: the number of residue `r` nearest to `c`

## Main results

* `SerialNumber.abs_nearest_sub_le`: no number of the residue is nearer to the checkpoint
* `SerialNumber.nearest_eq`: a number within half a modulus of the checkpoint is recovered
-/

namespace SerialNumber

variable {m r c x : ℕ}

/-- The number of steps from `c` forward to the next number of residue `r` modulo `m`. -/
def ahead (m r c : ℕ) : ℕ :=
  (m - c % m + r) % m

/-- The number of residue `r` modulo `m` nearest to `c`: forward when that is the shorter way, or
when going back would leave the natural numbers. -/
def nearest (m r c : ℕ) : ℕ :=
  if m ≤ 2 * ahead m r c ∧ m ≤ c + ahead m r c then c + ahead m r c - m else c + ahead m r c

theorem ahead_lt (hm : 0 < m) : ahead m r c < m :=
  Nat.mod_lt _ hm

theorem add_ahead_modEq (hm : 0 < m) : c + ahead m r c ≡ r [MOD m] := by
  have hc : c % m ≤ m := (Nat.mod_lt c hm).le
  calc c + ahead m r c ≡ c % m + (m - c % m + r) [MOD m] :=
        Nat.ModEq.add (Nat.mod_modEq c m).symm (Nat.mod_modEq _ m)
    _ = m + r := by omega
    _ ≡ r [MOD m] := by simp [Nat.ModEq]

theorem nearest_modEq (hm : 0 < m) : nearest m r c ≡ r [MOD m] := by
  unfold nearest
  split_ifs with h
  · -- a whole modulus back
    have hadd : c + ahead m r c - m + m = c + ahead m r c := Nat.sub_add_cancel h.2
    have hsub : c + ahead m r c - m ≡ c + ahead m r c [MOD m] := by
      conv_rhs => rw [← hadd]
      simp [Nat.ModEq]
    exact hsub.trans (add_ahead_modEq hm)
  · exact add_ahead_modEq hm

/-- A number of residue `r` differs from `c + ahead m r c` by a multiple of the modulus. -/
theorem exists_eq_add_ahead (hm : 0 < m) (hx : x ≡ r [MOD m]) :
    ∃ k : ℤ, (x : ℤ) = c + ahead m r c + m * k := by
  have h : c + ahead m r c ≡ x [MOD m] := (add_ahead_modEq hm).trans hx.symm
  obtain ⟨k, hk⟩ := (Nat.modEq_iff_dvd).mp h
  exact ⟨k, by push_cast at hk; omega⟩

/-- **No number of the residue is nearer** to the checkpoint. -/
theorem abs_nearest_sub_le (hm : 0 < m) (hx : x ≡ r [MOD m]) :
    |(nearest m r c : ℤ) - c| ≤ |(x : ℤ) - c| := by
  obtain ⟨k, hk⟩ := exists_eq_add_ahead (c := c) hm hx
  have hd : ahead m r c < m := ahead_lt hm
  have hx0 : (0 : ℤ) ≤ x := Int.natCast_nonneg x
  -- `x` lies at `c + ahead m r c` or beyond it, or at least a modulus before it
  have hside : 0 ≤ (m : ℤ) * k ∨ (m : ℤ) * k ≤ -m := by
    rcases Int.lt_or_le k 0 with hneg | hpos
    · have : (m : ℤ) * k ≤ m * (-1) := mul_le_mul_of_nonneg_left (by omega) (by omega)
      exact Or.inr (by omega)
    · exact Or.inl (mul_nonneg (by omega) hpos)
  have hcast : (nearest m r c : ℤ) =
      if m ≤ 2 * ahead m r c ∧ m ≤ c + ahead m r c then (c : ℤ) + ahead m r c - m
      else (c : ℤ) + ahead m r c := by
    unfold nearest
    split_ifs with h <;> omega
  rw [hcast, hk]
  generalize (m : ℤ) * k = y at hside hk ⊢
  split_ifs with h
  · rw [abs_of_nonpos (by omega)]
    rcases hside with hy | hy
    · rw [abs_of_nonneg (by omega)]
      omega
    · rw [abs_of_nonpos (by omega)]
      omega
  · rw [abs_of_nonneg (by omega)]
    rcases hside with hy | hy
    · rw [abs_of_nonneg (by omega)]
      omega
    · rw [abs_of_nonpos (by omega)]
      omega

/-- **Recovery is exact** within half a modulus of the checkpoint. -/
theorem nearest_eq (hm : 0 < m) (hx : x ≡ r [MOD m]) (hlo : 2 * c < 2 * x + m)
    (hhi : 2 * x < 2 * c + m) : nearest m r c = x := by
  obtain ⟨k, hk⟩ := exists_eq_add_ahead (c := c) hm hx
  have hd : ahead m r c < m := ahead_lt hm
  -- the multiple is `0` or `-1`, since `x` is less than one modulus away from `c`
  have hk1 : k < 1 := by
    by_contra hge
    have : (m : ℤ) * 1 ≤ m * k := mul_le_mul_of_nonneg_left (by omega) (by omega)
    omega
  have hk2 : -2 < k := by
    by_contra hle
    have : (m : ℤ) * k ≤ m * (-2) := mul_le_mul_of_nonneg_left (by omega) (by omega)
    omega
  unfold nearest
  rcases (by omega : k = 0 ∨ k = -1) with rfl | rfl
  · -- `x` is ahead of the checkpoint
    rw [if_neg (by omega)]
    omega
  · -- `x` is behind it
    rw [if_pos (by omega)]
    omega

end SerialNumber
