import Mathlib.Tactic

/-!
# Strings in pieces

A rope is a list of pieces, each of which stands for a string; together they stand for the
concatenation. Elements are discarded from the front piece by piece: whole pieces are removed, and
the first one that is not used up is cut. Whatever the pieces are, the empty ones included, this is
`List.drop` on the concatenation, and it fails exactly if there are not enough elements.

## Main definitions

* `Rope.concat content pieces`: the concatenation
* `Rope.discard content cut short pieces n`: discard `n` elements, or fail with `short`

## Main results

* `Rope.discard_of_lt`, `Rope.exists_discard_of_le`: the failure, and the success
* `Rope.discard_spec`: when discarding fails, and what is left otherwise
-/

namespace Rope

variable {α π ε : Type}

/-- The string that the pieces make up. -/
def concat (content : π → List α) (pieces : List π) : List α := pieces.flatMap content

/-- Discard the first `n` elements; `cut` shortens a single piece. -/
def discard (content : π → List α) (cut : π → ℕ → Except ε π) (short : ε) :
    List π → ℕ → Except ε (List π)
  | pieces, 0 => .ok pieces
  | [], _ + 1 => .error short
  | piece :: rest, n + 1 =>
    if n + 1 < (content piece).length then (cut piece (n + 1)).map (· :: rest)
    else discard content cut short rest (n + 1 - (content piece).length)

section

variable {content : π → List α} {cut : π → ℕ → Except ε π} {short : ε}

@[simp] theorem concat_nil : concat content [] = [] := rfl

@[simp] theorem concat_cons (piece : π) (rest : List π) :
    concat content (piece :: rest) = content piece ++ concat content rest := rfl

/-- **Too few elements**: all pieces are used up. -/
theorem discard_of_lt {pieces : List π} {n : ℕ} (h : (concat content pieces).length < n) :
    discard content cut short pieces n = .error short := by
  induction pieces generalizing n with
  | nil =>
    obtain ⟨k, rfl⟩ := Nat.exists_eq_succ_of_ne_zero (Nat.ne_of_gt h)
    rfl
  | cons piece rest ih =>
    rw [concat_cons, List.length_append] at h
    obtain ⟨k, rfl⟩ := Nat.exists_eq_succ_of_ne_zero (Nat.ne_of_gt (Nat.zero_lt_of_lt h))
    rw [discard, if_neg (by omega)]
    exact ih (by omega)

variable
  (hcut : ∀ piece n, n < (content piece).length →
    ∃ piece', cut piece n = .ok piece' ∧ content piece' = (content piece).drop n)

include hcut

variable (short) in
/-- **Enough elements**: what is left is the concatenation without the first `n` of them, if `cut`
shortens a piece by as many elements as it is asked to. -/
theorem exists_discard_of_le {pieces : List π} {n : ℕ} (h : n ≤ (concat content pieces).length) :
    ∃ rest, discard content cut short pieces n = .ok rest ∧
      concat content rest = (concat content pieces).drop n := by
  -- induction on the pieces; `n` shrinks by the pieces that are removed
  induction pieces generalizing n with
  | nil =>
    obtain rfl : n = 0 := Nat.le_zero.mp h
    exact ⟨[], rfl, rfl⟩
  | cons piece rest ih =>
    cases n with
    | zero => exact ⟨piece :: rest, rfl, rfl⟩
    | succ k =>
      rw [concat_cons, List.length_append] at h
      by_cases hin : k + 1 < (content piece).length
      · -- the cut goes through this piece
        obtain ⟨piece', hok, hcontent⟩ := hcut piece (k + 1) hin
        refine ⟨piece' :: rest, ?_, ?_⟩
        · rw [discard, if_pos hin, hok]
          rfl
        · rw [concat_cons, concat_cons, hcontent, List.drop_append_of_le_length hin.le]
      · -- the piece is removed
        have hout : (content piece).length ≤ k + 1 := Nat.le_of_not_lt hin
        obtain ⟨rest', hok, hconcat⟩ := ih (n := k + 1 - (content piece).length) (by omega)
        refine ⟨rest', ?_, ?_⟩
        · rw [discard, if_neg hin, hok]
        · rw [hconcat, concat_cons, List.drop_append, List.drop_of_length_le hout, List.nil_append]

/-- **Discarding is `List.drop`**, and fails exactly if there are too few elements. -/
theorem discard_spec (pieces : List π) (n : ℕ) :
    ((∃ e, discard content cut short pieces n = .error e) ↔ (concat content pieces).length < n) ∧
      (n ≤ (concat content pieces).length → ∃ rest,
        discard content cut short pieces n = .ok rest ∧
        concat content rest = (concat content pieces).drop n ∧
        (concat content rest).length = (concat content pieces).length - n) := by
  constructor
  · constructor
    · rintro ⟨e, he⟩
      by_contra hle
      obtain ⟨rest, hok, -⟩ := exists_discard_of_le short hcut (Nat.le_of_not_lt hle)
      rw [hok] at he
      cases he
    · exact fun hlt => ⟨short, discard_of_lt hlt⟩
  · intro hle
    obtain ⟨rest, hok, hrest⟩ := exists_discard_of_le short hcut hle
    refine ⟨rest, hok, hrest, ?_⟩
    rw [hrest, List.length_drop]

end

end Rope
