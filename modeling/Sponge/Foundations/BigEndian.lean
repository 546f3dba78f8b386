import Mathlib.Tactic

/-!
# Big-endian numbers

A number of a fixed width is sent as its bytes, the most significant first. Reading them back gives
the number, reduced to the width.

## Main definitions

* `BigEndian.value bytes`: the number that the bytes spell
* `BigEndian.bytes width v`: the `width` low bytes of `v`, the most significant first
* `BigEndian.field bytes start width`: the number that a part of a byte string spells

## Main results

* `BigEndian.value_bytes`: the bytes of a number that fits its width spell the number
* `BigEndian.bytes_value`: the number that some bytes spell has these bytes
* `BigEndian.value_lt`: `width` bytes spell a number below `256 ^ width`
-/

namespace BigEndian

/-- The number that the bytes spell, the most significant first. -/
def value (bytes : List UInt8) : ℕ :=
  bytes.foldl (fun acc byte => acc * 256 + byte.toNat) 0

/-- The `width` low bytes of a number, the most significant first. -/
def bytes : ℕ → ℕ → List UInt8
  | 0, _ => []
  | width + 1, v => bytes width (v / 256) ++ [UInt8.ofNat v]

/-- The number spelled by the `width` bytes that start at a given place. -/
def field (bytes : List UInt8) (start width : ℕ) : ℕ :=
  value ((bytes.drop start).take width)

@[simp] theorem value_nil : value [] = 0 := rfl

theorem value_append_singleton (front : List UInt8) (byte : UInt8) :
    value (front ++ [byte]) = value front * 256 + byte.toNat := by
  simp [value]

@[simp] theorem length_bytes (width v : ℕ) : (bytes width v).length = width := by
  induction width generalizing v with
  | zero => rfl
  | succ width ih => simp [bytes, ih]

theorem value_bytes_eq_mod (width v : ℕ) : value (bytes width v) = v % 256 ^ width := by
  induction width generalizing v with
  | zero => simp [bytes, Nat.mod_one]
  | succ width ih =>
    have hbyte : (UInt8.ofNat v).toNat = v % 256 := by simp
    rw [bytes, value_append_singleton, ih, hbyte, pow_succ', Nat.mod_mul]
    omega

/-- **Reading back**: the bytes of a number that fits its width spell the number. -/
theorem value_bytes {width v : ℕ} (h : v < 256 ^ width) : value (bytes width v) = v := by
  rw [value_bytes_eq_mod, Nat.mod_eq_of_lt h]

theorem value_lt (front : List UInt8) : value front < 256 ^ front.length := by
  induction front using List.reverseRecOn with
  | nil => simp
  | append_singleton front byte ih =>
    have hbyte : byte.toNat < 256 := byte.toNat_lt
    rw [value_append_singleton, List.length_append, List.length_singleton, pow_succ]
    omega

/-- **Writing back**: the number that some bytes spell has these bytes. -/
theorem bytes_value (front : List UInt8) : bytes front.length (value front) = front := by
  induction front using List.reverseRecOn with
  | nil => rfl
  | append_singleton front byte ih =>
    have hbyte : byte.toNat < 256 := byte.toNat_lt
    have hhigh : (value front * 256 + byte.toNat) / 256 = value front := by omega
    have hlow : UInt8.ofNat (value front * 256 + byte.toNat) = byte := by
      rw [← UInt8.toNat_inj, UInt8.toNat_ofNat']
      omega
    rw [List.length_append, List.length_singleton, bytes, value_append_singleton, hhigh, ih, hlow]

theorem field_lt (bytes : List UInt8) (start width : ℕ) :
    field bytes start width < 256 ^ width :=
  (value_lt _).trans_le (Nat.pow_le_pow_right (by decide) (List.length_take_le _ _))

theorem bytes_field {data : List UInt8} {start width : ℕ} (h : start + width ≤ data.length) :
    bytes width (field data start width) = (data.drop start).take width := by
  have hlen : ((data.drop start).take width).length = width := by
    rw [List.length_take, List.length_drop]
    omega
  have hback := bytes_value ((data.drop start).take width)
  rwa [hlen] at hback

theorem field_take {bytes : List UInt8} {n start width : ℕ} (h : start + width ≤ n) :
    field (bytes.take n) start width = field bytes start width := by
  rw [field, List.drop_take, List.take_take, Nat.min_eq_left (by omega), field]

theorem field_one (bytes : List UInt8) (start : ℕ) :
    field bytes start 1 = (bytes.getD start 0).toNat := by
  rw [field, List.take_one, List.head?_drop, List.getD_eq_getElem?_getD]
  cases bytes[start]? with
  | none => rfl
  | some byte => simp [value]

end BigEndian
