import Mathlib.Tactic
import Mathlib.Data.Nat.Bitwise
import Sponge.Foundations.SerialNumber

/-!
# Wrapping 32-bit sequence numbers

`WrappingInt32` is a 32-bit number relative to an initial sequence number. `wrap` sends an absolute
sequence number to its 32-bit form and `unwrap` recovers it next to a checkpoint. Absolute sequence
numbers are 64-bit in the source and natural numbers here: they count the bytes of one stream.

## Main definitions

* `WrappingInt32`, `wrap`, `unwrap`
* `wrapUInt64`, `unwrapUInt64`: the same in the 64-bit arithmetic of the source

## Main results

* `unwrap_eq_nearest`: `unwrap` is the nearest serial number modulo `2 ^ 32`
* `unwrap_wrap`: an absolute number within `2 ^ 31` of the checkpoint is recovered
* `wrap_eq_wrap_iff`: two absolute numbers wrap alike exactly when they agree modulo `2 ^ 32`
* `unwrapUInt64_toNat`: up to a checkpoint of `2 ^ 63` the 64-bit arithmetic does not overflow
-/

namespace Sponge

/-- A 32-bit integer relative to an arbitrary initial sequence number. -/
structure WrappingInt32 where
  rawValue : UInt32
  deriving DecidableEq, Repr

/-- The point `b` steps past `a`, modulo `2 ^ 32`. -/
def WrappingInt32.add (a : WrappingInt32) (b : UInt32) : WrappingInt32 :=
  ⟨a.rawValue + b⟩

/-- The 32-bit form of an absolute sequence number: `isn + n`, where `n` is narrowed to 32 bits. -/
def wrap (n : ℕ) (isn : WrappingInt32) : WrappingInt32 :=
  isn.add (UInt32.ofNat n)

/-- The absolute sequence number that wraps to `n` and is closest to `checkpoint`. -/
def unwrap (n isn : WrappingInt32) (checkpoint : ℕ) : ℕ :=
  let diff : UInt32 := n.rawValue - (wrap checkpoint isn).rawValue
  -- a step back of more than the checkpoint would be negative: go forward instead
  if diff &&& 0x80000000 ≠ 0 ∧ diff.toNat + checkpoint ≤ 0xFFFFFFFF then
    checkpoint + diff.toNat
  else
    (checkpoint + diff.toInt32.toInt).toNat

theorem and_highBit_eq_zero_iff (x : UInt32) : x &&& 0x80000000 = 0 ↔ x.toNat < 2 ^ 31 := by
  have hlt : x.toNat < 2 ^ 32 := x.toNat_lt
  have hbit : x.toNat.testBit 31 = decide (2 ^ 31 ≤ x.toNat) := by
    rw [Nat.testBit_eq_decide_div_mod_eq]
    congr 1
    apply propext
    omega
  rw [← UInt32.toNat_inj, UInt32.toNat_and]
  change x.toNat &&& 2 ^ 31 = 0 ↔ _
  rw [Nat.and_two_pow, hbit]
  by_cases h : 2 ^ 31 ≤ x.toNat
  · simp only [h, decide_true, Bool.toNat_true]
    omega
  · simp only [h, decide_false, Bool.toNat_false]
    omega

theorem toInt_toInt32 (x : UInt32) :
    x.toInt32.toInt = if x.toNat < 2 ^ 31 then (x.toNat : ℤ) else x.toNat - 2 ^ 32 := by
  change x.toBitVec.toInt = _
  rw [BitVec.toInt_eq_toNat_cond, UInt32.toNat_toBitVec]
  split_ifs <;> omega

/-- The residue a 32-bit number stands for: its offset from the initial sequence number. -/
def WrappingInt32.offset (n isn : WrappingInt32) : ℕ :=
  (n.rawValue - isn.rawValue).toNat

@[simp] theorem wrap_offset (n : ℕ) (isn : WrappingInt32) :
    (wrap n isn).offset isn = n % 2 ^ 32 := by
  simp only [WrappingInt32.offset, wrap, WrappingInt32.add, UInt32.toNat_sub, UInt32.toNat_add,
    UInt32.toNat_ofNat']
  have := isn.rawValue.toNat_lt
  omega

theorem wrap_zero (isn : WrappingInt32) : wrap 0 isn = isn := by
  simp [wrap, WrappingInt32.add]

/-- Walking back from a 32-bit number to a wrapped checkpoint is walking ahead from the
checkpoint. -/
theorem sub_wrap_toNat (n isn : WrappingInt32) (checkpoint : ℕ) :
    (n.rawValue - (wrap checkpoint isn).rawValue).toNat =
      SerialNumber.ahead (2 ^ 32) (n.offset isn) checkpoint := by
  simp only [SerialNumber.ahead, WrappingInt32.offset, wrap, WrappingInt32.add,
    UInt32.toNat_sub, UInt32.toNat_add, UInt32.toNat_ofNat']
  have := n.rawValue.toNat_lt
  have := isn.rawValue.toNat_lt
  omega

/-- **`unwrap` is the nearest serial number** modulo `2 ^ 32`. -/
theorem unwrap_eq_nearest (n isn : WrappingInt32) (checkpoint : ℕ) :
    unwrap n isn checkpoint = SerialNumber.nearest (2 ^ 32) (n.offset isn) checkpoint := by
  have hlt : SerialNumber.ahead (2 ^ 32) (n.offset isn) checkpoint < 2 ^ 32 :=
    SerialNumber.ahead_lt (by norm_num)
  unfold unwrap SerialNumber.nearest
  simp only [ne_eq, and_highBit_eq_zero_iff, toInt_toInt32, sub_wrap_toNat]
  -- the 32-bit offset read as signed is negative exactly if it is at least half the modulus
  generalize SerialNumber.ahead (2 ^ 32) (n.offset isn) checkpoint = d at hlt ⊢
  split_ifs <;> omega

/-- An absolute number within `2 ^ 31` of the checkpoint is recovered from its 32-bit form. -/
theorem unwrap_wrap {x checkpoint : ℕ} (isn : WrappingInt32) (hlo : checkpoint < x + 2 ^ 31)
    (hhi : x < checkpoint + 2 ^ 31) : unwrap (wrap x isn) isn checkpoint = x := by
  rw [unwrap_eq_nearest, wrap_offset]
  exact SerialNumber.nearest_eq (by norm_num) (Nat.mod_modEq x _).symm (by omega) (by omega)

theorem wrap_eq_wrap_iff {x y : ℕ} {isn : WrappingInt32} :
    wrap x isn = wrap y isn ↔ x % 2 ^ 32 = y % 2 ^ 32 := by
  constructor
  · intro h
    rw [← wrap_offset x isn, ← wrap_offset y isn, h]
  · intro h
    have hof : UInt32.ofNat x = UInt32.ofNat y := by
      rw [← UInt32.toNat_inj, UInt32.toNat_ofNat', UInt32.toNat_ofNat', h]
    simp only [wrap, hof]

theorem wrap_eq_iff_modEq {v : ℕ} {n isn : WrappingInt32} :
    wrap v isn = n ↔ v ≡ n.offset isn [MOD 2 ^ 32] := by
  have hn : wrap (n.offset isn) isn = n := by
    have hraw : isn.rawValue + UInt32.ofNat (n.rawValue - isn.rawValue).toNat = n.rawValue := by
      rw [UInt32.ofNat_toNat, UInt32.add_comm, UInt32.sub_add_cancel]
    simp only [wrap, WrappingInt32.add, WrappingInt32.offset, hraw]
  conv_lhs => rw [← hn]
  exact wrap_eq_wrap_iff

/-- Only the initial sequence number itself unwraps to 0 next to the start. -/
theorem unwrap_zero_eq_zero_iff {n isn : WrappingInt32} : unwrap n isn 0 = 0 ↔ n = isn := by
  constructor
  · intro h
    rw [unwrap_eq_nearest] at h
    have hmod : 0 ≡ n.offset isn [MOD 2 ^ 32] := by
      have hnearest := SerialNumber.nearest_modEq (m := 2 ^ 32) (r := n.offset isn) (c := 0)
        (by norm_num)
      rwa [h] at hnearest
    rw [← wrap_eq_iff_modEq.mpr hmod, wrap_zero]
  · rintro rfl
    have hwrap : unwrap (wrap 0 n) n 0 = 0 := unwrap_wrap n (by norm_num) (by norm_num)
    rwa [wrap_zero] at hwrap

/-! ## The 64-bit arithmetic of the source -/

/-- `wrap` on 64-bit numbers. -/
def wrapUInt64 (n : UInt64) (isn : WrappingInt32) : WrappingInt32 :=
  isn.add n.toUInt32

/-- `unwrap` in the 64-bit arithmetic of the source. -/
def unwrapUInt64 (n isn : WrappingInt32) (checkpoint : UInt64) : UInt64 :=
  let diff : UInt32 := n.rawValue - (wrapUInt64 checkpoint isn).rawValue
  if diff &&& 0x80000000 ≠ 0 ∧ diff.toUInt64 + checkpoint ≤ 0xFFFFFFFF then
    checkpoint + diff.toUInt64
  else
    checkpoint + diff.toInt32.toInt64.toUInt64

theorem wrapUInt64_eq (n : UInt64) (isn : WrappingInt32) : wrapUInt64 n isn = wrap n.toNat isn := by
  have hnarrow : n.toUInt32 = UInt32.ofNat n.toNat := by
    rw [← UInt32.toNat_inj]
    simp
  simp only [wrapUInt64, wrap, hnarrow]

/-- The sign extension of a 32-bit number to 64 bits. -/
theorem toNat_signExtend (x : UInt32) :
    x.toInt32.toInt64.toUInt64.toNat =
      if x.toNat < 2 ^ 31 then x.toNat else x.toNat + (2 ^ 64 - 2 ^ 32) := by
  have hlt : x.toNat < 2 ^ 32 := x.toNat_lt
  have hmsb : x.toBitVec.msb = decide (2 ^ 31 ≤ x.toNat) := by
    rw [BitVec.msb_eq_decide]
    rfl
  have hwidth : (x.toBitVec.setWidth 64).toNat = x.toNat := by
    rw [BitVec.toNat_setWidth, UInt32.toNat_toBitVec]
    omega
  change (x.toBitVec.signExtend 64).toNat = _
  rw [BitVec.toNat_signExtend, hwidth, hmsb]
  simp only [decide_eq_true_eq]
  split_ifs <;> omega

theorem unwrapUInt64_toNat (n isn : WrappingInt32) {checkpoint : UInt64}
    (h : checkpoint.toNat ≤ 2 ^ 63) :
    (unwrapUInt64 n isn checkpoint).toNat = unwrap n isn checkpoint.toNat := by
  simp only [unwrapUInt64, unwrap, wrapUInt64_eq]
  generalize n.rawValue - (wrap checkpoint.toNat isn).rawValue = diff
  have hlt : diff.toNat < 2 ^ 32 := diff.toNat_lt
  have hsum : (diff.toUInt64 + checkpoint).toNat = diff.toNat + checkpoint.toNat := by
    rw [UInt64.toNat_add, UInt32.toNat_toUInt64]
    omega
  have hle : diff.toUInt64 + checkpoint ≤ 0xFFFFFFFF ↔
      diff.toNat + checkpoint.toNat ≤ 0xFFFFFFFF := by
    rw [UInt64.le_iff_toNat_le, hsum]
    rfl
  simp only [hle, ne_eq, and_highBit_eq_zero_iff, toInt_toInt32]
  split_ifs with h1 h2
  · rw [UInt64.add_comm, hsum, Nat.add_comm]
  · rw [UInt64.toNat_add, toNat_signExtend, if_pos h2]
    omega
  · rw [UInt64.toNat_add, toNat_signExtend, if_neg h2]
    omega

/-- **`unwrap` returns the nearest sequence number**: it wraps to the given number, no 64-bit number
that wraps to it is strictly closer to the checkpoint, and a number less than `2 ^ 31` away from the
checkpoint is recovered. -/
theorem unwrapUInt64_nearest (n isn : WrappingInt32) (checkpoint : UInt64)
    (h : checkpoint.toNat ≤ 2 ^ 63) :
    wrapUInt64 (unwrapUInt64 n isn checkpoint) isn = n ∧
      (∀ u : UInt64, wrapUInt64 u isn = n →
        |((unwrapUInt64 n isn checkpoint).toNat : ℤ) - checkpoint.toNat| ≤
          |(u.toNat : ℤ) - checkpoint.toNat|) ∧
      ∀ x : UInt64, |(x.toNat : ℤ) - checkpoint.toNat| < 2 ^ 31 →
        unwrapUInt64 (wrapUInt64 x isn) isn checkpoint = x := by
  have hm : 0 < 2 ^ 32 := by norm_num
  refine ⟨?_, fun u hu => ?_, fun x hx => ?_⟩
  · rw [wrapUInt64_eq, unwrapUInt64_toNat n isn h, wrap_eq_iff_modEq, unwrap_eq_nearest]
    exact SerialNumber.nearest_modEq hm
  · rw [wrapUInt64_eq, wrap_eq_iff_modEq] at hu
    rw [unwrapUInt64_toNat n isn h, unwrap_eq_nearest]
    exact SerialNumber.abs_nearest_sub_le hm hu
  · obtain ⟨hlo, hhi⟩ := abs_lt.mp hx
    rw [← UInt64.toNat_inj, unwrapUInt64_toNat _ isn h, wrapUInt64_eq]
    exact unwrap_wrap isn (by omega) (by omega)

/-- At a checkpoint of zero, the number one below the initial one is far ahead. -/
theorem unwrapUInt64_nearest_zero :
    wrapUInt64 (unwrapUInt64 ⟨0xffffffff⟩ ⟨0⟩ 0) ⟨0⟩ = ⟨0xffffffff⟩ ∧
      (∀ u : UInt64, wrapUInt64 u ⟨0⟩ = ⟨0xffffffff⟩ →
        |((unwrapUInt64 ⟨0xffffffff⟩ ⟨0⟩ 0).toNat : ℤ) - (0 : UInt64).toNat| ≤
          |(u.toNat : ℤ) - (0 : UInt64).toNat|) ∧
      ∀ x : UInt64, |(x.toNat : ℤ) - (0 : UInt64).toNat| < 2 ^ 31 →
        unwrapUInt64 (wrapUInt64 x ⟨0⟩) ⟨0⟩ 0 = x :=
  unwrapUInt64_nearest ⟨0xffffffff⟩ ⟨0⟩ 0 (by decide)

end Sponge
