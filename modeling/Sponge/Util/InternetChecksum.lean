import Mathlib.Tactic
import Sponge.Foundations.BigEndian
import Sponge.Foundations.OnesComplement

/-!
# The Internet checksum

`InternetChecksum` adds the 16-bit words of a byte string to a 32-bit sum, one byte at a time, and
folds the sum into one word at the end. As long as the sum does not overflow, the value is the
complement of the one's-complement sum of the words. The value written into a zeroed field of the
string makes the value over the result zero, even if the sum overflows: the largest 32-bit number is
a multiple of the all-ones word, so that the complement never carries out of the sum.

## Main definitions

* `InternetChecksum`, `add`, `value`
* `InternetChecksum.Verifies initial data`: the words of `data`, added to `initial` with end-around
  carry, give the all-ones word
* `InternetChecksum.FoldsTo ret result`: the loop of `value`, started with `ret`, ends with `result`
* `InternetChecksum.onesSum initial data`: the one's-complement sum

## Main results

* `InternetChecksum.value_add_eq_zero_iff`: the value is zero exactly if the checksum verifies
* `InternetChecksum.verifies_of_value`: a string that holds its own checksum verifies
* `internetChecksum_chunks_and_field`: the value does not depend on the chunks, and completes the
  string
-/

namespace Sponge

open OnesComplement

/-- The Internet checksum of `util.hh`: a running sum, and whether the next byte is a low one. -/
structure InternetChecksum where
  sum : UInt32 := 0
  parity : Bool := false
  deriving DecidableEq, Repr

namespace InternetChecksum

/-- One round of the loop of `add`. -/
def addByte (check : InternetChecksum) (byte : UInt8) : InternetChecksum :=
  let val : UInt16 := byte.toUInt16
  let val := if !check.parity then val <<< 8 else val
  { sum := check.sum + val.toUInt32, parity := !check.parity }

def add (check : InternetChecksum) (data : List UInt8) : InternetChecksum :=
  data.foldl addByte check

/-- The loop of `value`, for at most `fuel` rounds. -/
def foldLoop : ℕ → UInt32 → UInt32
  | 0, ret => ret
  | fuel + 1, ret =>
    if ret > 0xffff then foldLoop fuel ((ret >>> 16) + (ret &&& 0xffff)) else ret

/-- The complement of the folded sum. A 32-bit sum is folded after two rounds. -/
def value (check : InternetChecksum) : UInt16 :=
  (~~~foldLoop 2 check.sum).toUInt16

/-- The words of `data`, added to `initial` with end-around carry, give the all-ones word. -/
def Verifies (initial : ℕ) (data : List UInt8) : Prop :=
  fold 0xffff (initial + wordSum false data) = 0xffff

instance (initial : ℕ) (data : List UInt8) : Decidable (Verifies initial data) :=
  inferInstanceAs (Decidable (_ = _))

/-! ## The sum -/

theorem addByte_sum_toNat (check : InternetChecksum) (byte : UInt8) :
    (check.addByte byte).sum.toNat =
      (check.sum.toNat + if check.parity then byte.toNat else byte.toNat * 256) % 2 ^ 32 := by
  have hbyte : byte.toNat < 256 := byte.toNat_lt
  cases hp : check.parity with
  | false =>
    have hshift : byte.toNat <<< 8 % 65536 = byte.toNat * 256 := by
      rw [Nat.shiftLeft_eq]
      omega
    simp [addByte, hp, hshift]
  | true => simp [addByte, hp]

theorem add_append (check : InternetChecksum) (data data' : List UInt8) :
    check.add (data ++ data') = (check.add data).add data' :=
  List.foldl_append

/-- The chunks in which a string is added do not matter. -/
theorem foldl_add_eq_add_flatten (check : InternetChecksum) (chunks : List (List UInt8)) :
    chunks.foldl add check = check.add chunks.flatten := by
  induction chunks generalizing check with
  | nil => rfl
  | cons chunk chunks ih => rw [List.foldl_cons, ih, List.flatten_cons, add_append]

/-- The sum is that of the words, modulo `2 ^ 32`. -/
theorem add_sum_toNat_mod (check : InternetChecksum) (data : List UInt8) :
    (check.add data).sum.toNat = (check.sum.toNat + wordSum check.parity data) % 2 ^ 32 := by
  induction data generalizing check with
  | nil => exact (Nat.mod_eq_of_lt check.sum.toNat_lt).symm
  | cons byte data ih =>
    have hparity : (check.addByte byte).parity = !check.parity := rfl
    change ((check.addByte byte).add data).sum.toNat = _
    rw [ih, addByte_sum_toNat, hparity, Nat.mod_add_mod, wordSum_cons, Nat.add_assoc]

/-- A sum that stays below `2 ^ 32` is the sum of the words. -/
theorem add_sum_toNat (check : InternetChecksum) {data : List UInt8}
    (h : check.sum.toNat + wordSum check.parity data < 2 ^ 32) :
    (check.add data).sum.toNat = check.sum.toNat + wordSum check.parity data := by
  rw [add_sum_toNat_mod, Nat.mod_eq_of_lt h]

/-! ## The value -/

/-- One round adds the carry back at the low end. -/
theorem carry_toNat (ret : UInt32) :
    ((ret >>> 16) + (ret &&& 0xffff)).toNat = ret.toNat / 65536 + ret.toNat % 65536 := by
  have hlt : ret.toNat < 2 ^ 32 := ret.toNat_lt
  have hand : ret.toNat &&& 65535 = ret.toNat % 65536 := Nat.and_two_pow_sub_one_eq_mod _ 16
  rw [UInt32.toNat_add, UInt32.toNat_shiftRight, UInt32.toNat_and]
  change (ret.toNat >>> 16 + (ret.toNat &&& 65535)) % 2 ^ 32 = _
  rw [hand, Nat.shiftRight_eq_div_pow]
  omega

theorem fold_foldLoop (fuel : ℕ) (ret : UInt32) :
    fold 0xffff (foldLoop fuel ret).toNat = fold 0xffff ret.toNat := by
  induction fuel generalizing ret with
  | zero => rfl
  | succ fuel ih =>
    rw [foldLoop]
    split_ifs with h
    · rw [ih, carry_toNat]
      exact fold_carry
    · rfl

/-- Two rounds fold every 32-bit sum into one word. -/
theorem foldLoop_two_le (ret : UInt32) : (foldLoop 2 ret).toNat ≤ 0xffff := by
  have hlt : ret.toNat < 2 ^ 32 := ret.toNat_lt
  have hcond : ∀ x : UInt32, x > 0xffff ↔ 0xffff < x.toNat := fun x => UInt32.lt_iff_toNat_lt
  simp only [foldLoop]
  split_ifs with h h'
  · rw [carry_toNat, carry_toNat]
    omega
  · rw [hcond] at h'
    omega
  · rw [hcond] at h
    omega

/-- The loop of `value`, started with `ret`, ends with `result`. -/
inductive FoldsTo : UInt32 → UInt32 → Prop
  | done {ret : UInt32} : ¬ ret > 0xffff → FoldsTo ret ret
  | round {ret result : UInt32} :
    ret > 0xffff → FoldsTo ((ret >>> 16) + (ret &&& 0xffff)) result → FoldsTo ret result

/-- Enough fuel is the loop: it has ended if its result is a word. -/
theorem foldsTo_foldLoop {fuel : ℕ} {ret : UInt32} (h : (foldLoop fuel ret).toNat ≤ 0xffff) :
    FoldsTo ret (foldLoop fuel ret) := by
  -- a loop that has run out of fuel with a word has reached its exit
  induction fuel generalizing ret with
  | zero => exact .done (UInt32.lt_iff_toNat_lt.not.mpr (Nat.not_lt_of_le h))
  | succ fuel ih =>
    rw [foldLoop] at h ⊢
    split_ifs at h ⊢ with hmore
    · exact .round hmore (ih h)
    · exact .done hmore

theorem foldLoop_two_toNat (ret : UInt32) : (foldLoop 2 ret).toNat = fold 0xffff ret.toNat := by
  rw [← fold_foldLoop 2 ret, fold_of_le (foldLoop_two_le ret)]

theorem value_toNat (check : InternetChecksum) :
    check.value.toNat = 0xffff - fold 0xffff check.sum.toNat := by
  have hle := foldLoop_two_le check.sum
  rw [← foldLoop_two_toNat]
  simp only [value, UInt32.toNat_toUInt16, UInt32.toNat_not, UInt32.size]
  omega

theorem value_eq_zero_iff (check : InternetChecksum) :
    check.value = 0 ↔ fold 0xffff check.sum.toNat = 0xffff := by
  have hle : fold 0xffff check.sum.toNat ≤ 0xffff := fold_le (by norm_num)
  rw [← UInt16.toNat_inj, value_toNat]
  change 0xffff - fold 0xffff check.sum.toNat = 0 ↔ _
  omega

/-! ## Whole strings -/

section Strings

variable {initial : UInt32} {data : List UInt8}

/-- The sum over a string of at most 65535 bytes does not overflow. -/
theorem add_wordSum_lt (hinitial : initial.toNat < 2 ^ 20) (hlen : data.length ≤ 65535) :
    initial.toNat + wordSum false data + 65535 < 2 ^ 32 := by
  have hle : wordSum false data ≤ data.length * (255 * 256) := wordSum_le
  have hmul : data.length * (255 * 256) ≤ 65535 * (255 * 256) := Nat.mul_le_mul_right _ hlen
  omega

theorem sum_toNat (hinitial : initial.toNat < 2 ^ 20) (hlen : data.length ≤ 65535) :
    (({ sum := initial } : InternetChecksum).add data).sum.toNat =
      initial.toNat + wordSum false data := by
  have hlt : initial.toNat + wordSum false data < 2 ^ 32 :=
    (Nat.le_add_right _ _).trans_lt (add_wordSum_lt hinitial hlen)
  exact add_sum_toNat { sum := initial } hlt

/-- **The check**: the value over a string is zero exactly if the checksum verifies. -/
theorem value_add_eq_zero_iff (hinitial : initial.toNat < 2 ^ 20) (hlen : data.length ≤ 65535) :
    (({ sum := initial } : InternetChecksum).add data).value = 0 ↔
      Verifies initial.toNat data := by
  rw [value_eq_zero_iff, sum_toNat hinitial hlen, Verifies]

theorem wordSum_bytes_two (v : UInt16) (rest : List UInt8) :
    wordSum false (BigEndian.bytes 2 v.toNat ++ rest) = v.toNat + wordSum false rest := by
  have hlt : v.toNat < 65536 := v.toNat_lt
  simp only [BigEndian.bytes, List.nil_append, List.cons_append, wordSum_cons, Bool.false_eq_true,
    if_false, Bool.not_false, if_true, Bool.not_true, UInt8.toNat_ofNat']
  omega

/-- **A field that holds the value completes the string**, whatever the string is. -/
theorem value_add_field {front back : List UInt8} (hfront : Even front.length) {cksum : UInt16}
    (hcksum : cksum =
      (({ sum := initial } : InternetChecksum).add
        (front ++ (BigEndian.bytes 2 0 ++ back))).value) :
    (({ sum := initial } : InternetChecksum).add
      (front ++ (BigEndian.bytes 2 cksum.toNat ++ back))).value = 0 := by
  -- what the sum holds for a value of the field, in terms of what it holds for a zeroed field
  have hsum (v : UInt16) :
      (({ sum := initial } : InternetChecksum).add
        (front ++ (BigEndian.bytes 2 v.toNat ++ back))).sum.toNat =
        (initial.toNat + wordSum false front + wordSum false back + v.toNat) % 2 ^ 32 := by
    rw [add_sum_toNat_mod]
    change (initial.toNat + wordSum false _) % 2 ^ 32 = _
    rw [wordSum_append, parityAfter_eq_of_even hfront, wordSum_bytes_two]
    congr 1
    omega
  have hzero := hsum 0
  have hfield := hsum cksum
  generalize initial.toNat + wordSum false front + wordSum false back = n at hzero hfield
  have hvalue : cksum.toNat = 0xffff - fold 0xffff (n % 2 ^ 32) := by
    rw [hcksum, value_toNat]
    exact congrArg (fun n => 0xffff - fold 0xffff n) hzero
  -- the largest sum is a multiple of the all-ones word, so the complement does not carry out of it
  have hle : n % 2 ^ 32 + (0xffff - fold 0xffff (n % 2 ^ 32)) ≤ 0xffff * 65537 :=
    add_complement_le (by norm_num) (by omega) (by norm_num)
  rw [value_eq_zero_iff, hfield, hvalue, ← Nat.mod_add_mod, Nat.mod_eq_of_lt (by omega)]
  exact fold_add_complement (by norm_num)

/-- **A string that holds its own checksum verifies**: the value over the string with the field
zeroed is what the field must hold. -/
theorem verifies_of_value {front back : List UInt8} (hfront : Even front.length)
    (hinitial : initial.toNat < 2 ^ 20)
    (hlen : (front ++ (BigEndian.bytes 2 0 ++ back)).length ≤ 65535) {cksum : UInt16}
    (hcksum : cksum =
      (({ sum := initial } : InternetChecksum).add
        (front ++ (BigEndian.bytes 2 0 ++ back))).value) :
    Verifies initial.toNat (front ++ (BigEndian.bytes 2 cksum.toNat ++ back)) := by
  have hlen' : (front ++ (BigEndian.bytes 2 cksum.toNat ++ back)).length ≤ 65535 := by
    simpa [BigEndian.length_bytes] using hlen
  exact (value_add_eq_zero_iff hinitial hlen').mp (value_add_field hfront hcksum)

end Strings

/-! ## Chunks and fields -/

/-- The one's-complement sum of the two halves of `initial` and the words of `data`. -/
def onesSum (initial : UInt32) (data : List UInt8) : ℕ :=
  (words data).foldl (endAroundAdd 0xffff)
    (endAroundAdd 0xffff (initial.toNat / 2 ^ 16) (initial.toNat % 2 ^ 16))

theorem onesSum_eq_fold (initial : UInt32) (data : List UInt8) :
    onesSum initial data = fold 0xffff (initial.toNat + wordSum false data) := by
  have hlt : initial.toNat < 2 ^ 32 := initial.toNat_lt
  have hhalves : endAroundAdd 0xffff (initial.toNat / 2 ^ 16) (initial.toNat % 2 ^ 16) =
      fold 0xffff initial.toNat := by
    rw [endAroundAdd_eq_fold (by omega) (by omega)]
    exact fold_carry
  rw [onesSum, hhalves, foldl_endAroundAdd (by norm_num) fun _ => words_le, wordSum_eq_sum_words]

end InternetChecksum

/-- **The Internet checksum does not depend on chunks, and completes a string.** For every initial
sum and every way to split a string into chunks:

* adding the chunks one by one is adding the string;
* the loop of `value` ends, and the value is the complement of what it ends with;
* if the total sum stays below `2 ^ 32`, the value is the complement of the one's-complement sum of
  the initial sum and the words of the string.

And for every string with a zeroed field of two bytes at an even place, the value written into the
field makes the value over the result zero. -/
theorem internetChecksum_chunks_and_field (initial : UInt32) :
    (∀ chunks : List (List UInt8),
      let check := chunks.foldl InternetChecksum.add { sum := initial }
      check = ({ sum := initial } : InternetChecksum).add chunks.flatten ∧
      (∃ ret, InternetChecksum.FoldsTo check.sum ret ∧ check.value = (~~~ret).toUInt16) ∧
      (initial.toNat + (words chunks.flatten).sum < 2 ^ 32 →
        check.value.toNat = 0xffff - InternetChecksum.onesSum initial chunks.flatten)) ∧
    ∀ front back : List UInt8, Even front.length →
      let cksum := (({ sum := initial } : InternetChecksum).add
        (front ++ (BigEndian.bytes 2 0 ++ back))).value
      (({ sum := initial } : InternetChecksum).add
        (front ++ (BigEndian.bytes 2 cksum.toNat ++ back))).value = 0 := by
  constructor
  · intro chunks check
    have hcheck : check = ({ sum := initial } : InternetChecksum).add chunks.flatten :=
      InternetChecksum.foldl_add_eq_add_flatten _ chunks
    refine ⟨hcheck, ?_, ?_⟩
    · exact ⟨_, InternetChecksum.foldsTo_foldLoop (InternetChecksum.foldLoop_two_le check.sum), rfl⟩
    · intro hlt
      rw [← wordSum_eq_sum_words] at hlt
      have hsum := InternetChecksum.add_sum_toNat { sum := initial } hlt
      rw [hcheck, InternetChecksum.value_toNat, hsum, InternetChecksum.onesSum_eq_fold]
  · intro front back hfront cksum
    exact InternetChecksum.value_add_field hfront rfl

/-- The theorem on three bytes in two chunks, the first of odd length, and on a field between two
words. -/
theorem internetChecksum_chunks_and_field_odd :
    0 + (words [[1, 2, 3]].flatten).sum < 2 ^ 32 ∧
      (([[1], [2, 3]] : List (List UInt8)).foldl InternetChecksum.add {}).value.toNat =
        0xffff - InternetChecksum.onesSum 0 [1, 2, 3] ∧
      Even [1, 2].length ∧
      (({} : InternetChecksum).add ([1, 2] ++ (BigEndian.bytes 2
        (({} : InternetChecksum).add ([1, 2] ++ (BigEndian.bytes 2 0 ++ [3, 4]))).value.toNat ++
          [3, 4]))).value = 0 := by
  have hlt : 0 + (words [[1, 2, 3]].flatten).sum < 2 ^ 32 := by decide
  have heven : Even [1, 2].length := ⟨1, rfl⟩
  exact ⟨hlt, ((internetChecksum_chunks_and_field 0).1 [[1], [2, 3]]).2.2 hlt, heven,
    (internetChecksum_chunks_and_field 0).2 [1, 2] [3, 4] heven⟩

end Sponge
