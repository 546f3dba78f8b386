import Mathlib.Tactic

/-!
# One's-complement sums

Words between `0` and the all-ones word `m` are added with end-around carry: what overflows a word
is added back at its low end, until one word is left. This is addition modulo `m`, except that only
the empty sum folds to zero. A sender appends the complement of the folded sum, and the whole then
folds to the all-ones word.

## Main definitions

* `OnesComplement.fold m n`: the word that `n` folds to
* `OnesComplement.endAroundAdd m a b`: the sum of two words with end-around carry
* `OnesComplement.wordSum odd bytes`: the sum of the 16-bit words of a byte string that starts at an
  even or at an odd place
* `OnesComplement.words bytes`: the 16-bit words themselves

## Main results

* `OnesComplement.fold_carry`: adding the carry back does not change the word
* `OnesComplement.fold_add_complement`: with the complement of its fold added, every sum folds to
  the all-ones word
* `OnesComplement.foldl_endAroundAdd`: adding words one by one with end-around carry folds their sum
* `OnesComplement.wordSum_append`: the sum of a concatenation
-/

namespace OnesComplement

/-! ## Folding -/

section Fold

variable {m n : ℕ}

/-- The word among `0, …, m` that `n` folds to: `0` only for `0`, otherwise the nonzero word that is
congruent to `n` modulo `m`. -/
def fold (m n : ℕ) : ℕ :=
  if n = 0 then 0 else (n - 1) % m + 1

@[simp] theorem fold_zero : fold m 0 = 0 := rfl

theorem fold_of_pos (hn : 0 < n) : fold m n = (n - 1) % m + 1 :=
  if_neg hn.ne'

theorem fold_of_le (h : n ≤ m) : fold m n = n := by
  rcases Nat.eq_zero_or_pos n with rfl | hpos
  · rfl
  · rw [fold_of_pos hpos, Nat.mod_eq_of_lt (by omega)]
    omega

theorem fold_le (hm : 0 < m) : fold m n ≤ m := by
  unfold fold
  have := Nat.mod_lt (n - 1) hm
  split_ifs <;> omega

theorem fold_add_mul (hn : 0 < n) (k : ℕ) : fold m (n + m * k) = fold m n := by
  have hsub : n + m * k - 1 = n - 1 + m * k := by omega
  rw [fold_of_pos (by omega), fold_of_pos hn, hsub, Nat.add_mul_mod_self_left]

/-- **End-around carry** does not change the word a number folds to. -/
theorem fold_carry : fold m (n / (m + 1) + n % (m + 1)) = fold m n := by
  rcases Nat.eq_zero_or_pos n with rfl | hn
  · simp
  · have hdiv : (m + 1) * (n / (m + 1)) + n % (m + 1) = n := Nat.div_add_mod n (m + 1)
    have hsplit : n = n / (m + 1) + n % (m + 1) + m * (n / (m + 1)) := by
      rw [Nat.add_mul, Nat.one_mul] at hdiv
      omega
    -- the carry is not empty, or the number would be
    have hpos : 0 < n / (m + 1) + n % (m + 1) := by
      refine Nat.pos_of_ne_zero fun h0 => ?_
      obtain ⟨hq, hr⟩ := Nat.add_eq_zero_iff.mp h0
      rw [hq, hr] at hdiv
      omega
    conv_rhs => rw [hsplit]
    exact (fold_add_mul hpos _).symm

/-- With the complement of its fold added, a sum is the next multiple of the all-ones word. -/
theorem add_complement_eq (hm : 0 < m) (hn : 0 < n) :
    n + (m - fold m n) = m + m * ((n - 1) / m) := by
  have hlt : (n - 1) % m < m := Nat.mod_lt _ hm
  have hdiv : m * ((n - 1) / m) + (n - 1) % m = n - 1 := Nat.div_add_mod _ m
  rw [fold_of_pos hn]
  omega

/-- **The complement completes a sum**: with the complement of its fold added, every sum folds to
the all-ones word. -/
theorem fold_add_complement (hm : 0 < m) : fold m (n + (m - fold m n)) = m := by
  rcases Nat.eq_zero_or_pos n with rfl | hn
  · simp [fold_of_le]
  · rw [add_complement_eq hm hn, fold_add_mul hm, fold_of_le le_rfl]

/-- The completed sum stays within every multiple of the all-ones word that the sum stays within. -/
theorem add_complement_le (hm : 0 < m) {k : ℕ} (hn : n ≤ m * k) (hk : 0 < k) :
    n + (m - fold m n) ≤ m * k := by
  rcases Nat.eq_zero_or_pos n with rfl | hpos
  · rw [fold_zero, Nat.zero_add, Nat.sub_zero]
    exact Nat.le_mul_of_pos_right m hk
  · have hdiv : (n - 1) / m + 1 ≤ k := by
      rw [Nat.succ_le_iff, Nat.div_lt_iff_lt_mul hm, Nat.mul_comm]
      omega
    calc n + (m - fold m n) = m * ((n - 1) / m + 1) := by
          rw [add_complement_eq hm hpos, Nat.mul_add, Nat.mul_one, Nat.add_comm]
      _ ≤ m * k := Nat.mul_le_mul_left m hdiv

/-! ## Adding word by word -/

/-- The sum of two words with end-around carry: a carry out of the word is added at its low end. -/
def endAroundAdd (m a b : ℕ) : ℕ :=
  if a + b ≤ m then a + b else a + b - m

theorem endAroundAdd_eq_fold {a b : ℕ} (ha : a ≤ m) (hb : b ≤ m) :
    endAroundAdd m a b = fold m (a + b) := by
  unfold endAroundAdd
  split_ifs with hle
  · rw [fold_of_le hle]
  · have hsplit : a + b = a + b - m + m * 1 := by omega
    conv_rhs => rw [hsplit]
    rw [fold_add_mul (by omega), fold_of_le (by omega)]

/-- A word may be folded before it is added. -/
theorem fold_fold_add (a : ℕ) : fold m (fold m n + a) = fold m (n + a) := by
  rcases Nat.eq_zero_or_pos n with rfl | hn
  · rfl
  · have hdiv : m * ((n - 1) / m) + (n - 1) % m = n - 1 := Nat.div_add_mod _ m
    have hsplit : n + a = fold m n + a + m * ((n - 1) / m) := by
      rw [fold_of_pos hn]
      omega
    rw [hsplit, fold_add_mul]
    rw [fold_of_pos hn]
    omega

/-- **Adding words one by one** with end-around carry is folding their sum. -/
theorem foldl_endAroundAdd (hm : 0 < m) {ws : List ℕ} (hws : ∀ w ∈ ws, w ≤ m) :
    ws.foldl (endAroundAdd m) (fold m n) = fold m (n + ws.sum) := by
  induction ws generalizing n with
  | nil => rfl
  | cons w ws ih =>
    have hw : w ≤ m := hws w List.mem_cons_self
    rw [List.foldl_cons, endAroundAdd_eq_fold (fold_le hm) hw, fold_fold_add,
      ih fun w' hw' => hws w' (List.mem_cons_of_mem w hw'), List.sum_cons, Nat.add_assoc]

end Fold

/-! ## Words of a byte string -/

/-- The sum of the 16-bit words of a byte string, the high byte of each word first. A string that
starts at an odd place starts with a low byte, and one that ends in a high byte is padded. -/
def wordSum : Bool → List UInt8 → ℕ
  | _, [] => 0
  | odd, byte :: bytes => (if odd then byte.toNat else byte.toNat * 256) + wordSum (!odd) bytes

variable {odd : Bool} {byte : UInt8} {bytes bytes' : List UInt8}

@[simp] theorem wordSum_nil : wordSum odd [] = 0 := rfl

@[simp] theorem wordSum_cons :
    wordSum odd (byte :: bytes) =
      (if odd then byte.toNat else byte.toNat * 256) + wordSum (!odd) bytes := rfl

/-- The parity of the place where a byte string ends. -/
def parityAfter (odd : Bool) (bytes : List UInt8) : Bool :=
  bytes.foldl (fun odd _ => !odd) odd

@[simp] theorem parityAfter_nil : parityAfter odd [] = odd := rfl

@[simp] theorem parityAfter_cons : parityAfter odd (byte :: bytes) = parityAfter (!odd) bytes := rfl

theorem wordSum_append :
    wordSum odd (bytes ++ bytes') = wordSum odd bytes + wordSum (parityAfter odd bytes) bytes' := by
  induction bytes generalizing odd with
  | nil => simp
  | cons byte bytes ih => simp [ih, Nat.add_assoc]

theorem parityAfter_eq_of_even (h : Even bytes.length) : parityAfter odd bytes = odd := by
  induction bytes using List.twoStepInduction generalizing odd with
  | nil => rfl
  | singleton byte => simp at h
  | cons_cons byte byte' bytes ih _ =>
    have heven : Even bytes.length := by
      simpa [Nat.even_add_one] using h
    simpa using ih heven

/-- The 16-bit words of a byte string, the high byte of each first; an odd last byte is padded with
a zero byte. -/
def words : List UInt8 → List ℕ
  | [] => []
  | [high] => [high.toNat * 256]
  | high :: low :: rest => (high.toNat * 256 + low.toNat) :: words rest

theorem wordSum_eq_sum_words : wordSum false bytes = (words bytes).sum := by
  induction bytes using List.twoStepInduction with
  | nil => rfl
  | singleton high => simp [words]
  | cons_cons high low rest ih _ => simp [words, ih, Nat.add_assoc]

theorem words_le {w : ℕ} (hw : w ∈ words bytes) : w ≤ 0xffff := by
  induction bytes using List.twoStepInduction with
  | nil => cases hw
  | singleton high =>
    have hhigh : high.toNat < 256 := high.toNat_lt
    rw [words, List.mem_singleton] at hw
    omega
  | cons_cons high low rest ih _ =>
    have hhigh : high.toNat < 256 := high.toNat_lt
    have hlow : low.toNat < 256 := low.toNat_lt
    rw [words, List.mem_cons] at hw
    rcases hw with rfl | hw
    · omega
    · exact ih hw

theorem wordSum_le : wordSum odd bytes ≤ bytes.length * (255 * 256) := by
  induction bytes generalizing odd with
  | nil => simp
  | cons byte bytes ih =>
    have hbyte : byte.toNat < 256 := byte.toNat_lt
    have htail : wordSum (!odd) bytes ≤ bytes.length * (255 * 256) := ih
    rw [wordSum_cons, List.length_cons, Nat.add_mul]
    split_ifs <;> omega

end OnesComplement
