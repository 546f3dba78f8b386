import Mathlib.Tactic

/-!
# Programs that may fail

A computation in `Except ε` returns a value or fails. The lemmas below say when a composite
computation returns, so that a program in `do` notation is read off step by step; and a machine
whose steps may fail is followed along the runs on which none does.

## Main definitions

* `Fallible.run step s es`: the state after the inputs `es`, unless a step fails
* `Fallible.Always step P s es`: every input of the run meets `P` in the state it is taken in

## Main results

* `Fallible.bind_eq_ok_iff`, `Fallible.ite_throw_eq_ok_iff`: when a composite computation returns
* `Fallible.bind_eq_error_iff`, `Fallible.ite_throw_eq_error_iff`: when it fails
* `Fallible.invariant`: what every admissible step preserves, an admissible run preserves
-/

namespace Fallible

variable {ε α β : Type}

/-- A sequence of two computations returns if both do. -/
theorem bind_eq_ok_iff {x : Except ε α} {f : α → Except ε β} {b : β} :
    (x >>= f) = .ok b ↔ ∃ a, x = .ok a ∧ f a = .ok b := by
  cases x with
  | error e =>
    constructor
    · intro h
      cases h
    · rintro ⟨_, h, -⟩
      cases h
  | ok a =>
    constructor
    · exact fun h => ⟨a, rfl, h⟩
    · rintro ⟨_, ha, h⟩
      cases ha
      exact h

theorem map_eq_ok_iff {x : Except ε α} {f : α → β} {b : β} :
    x.map f = .ok b ↔ ∃ a, x = .ok a ∧ f a = b := by
  cases x <;> simp [Except.map]

/-- A sequence of two computations fails if the first does, or the second after it. -/
theorem bind_eq_error_iff {x : Except ε α} {f : α → Except ε β} {e : ε} :
    (x >>= f) = .error e ↔ x = .error e ∨ ∃ a, x = .ok a ∧ f a = .error e := by
  cases x with
  | error e' =>
    constructor
    · intro h
      cases h
      exact Or.inl rfl
    · rintro (h | ⟨_, h, -⟩)
      · cases h
        rfl
      · cases h
  | ok a =>
    constructor
    · exact fun h => Or.inr ⟨a, rfl, h⟩
    · rintro (h | ⟨_, ha, h⟩)
      · cases h
      · cases ha
        exact h

/-- What is left of a computation after a failed test is not reached. -/
theorem ite_throw_eq_ok_iff {c : Prop} [Decidable c] {e : ε} {f : β → Except ε α}
    {x : Except ε α} {a : α} :
    (if c then throw e >>= f else x) = .ok a ↔ ¬c ∧ x = .ok a := by
  by_cases hc : c
  · rw [if_pos hc]
    constructor
    · intro h
      cases h
    · exact fun h => absurd hc h.1
  · rw [if_neg hc]
    exact ⟨fun h => ⟨hc, h⟩, And.right⟩

/-- A computation fails in a test, or after it. -/
theorem ite_throw_eq_error_iff {c : Prop} [Decidable c] {e e' : ε} {f : β → Except ε α}
    {x : Except ε α} :
    (if c then throw e >>= f else x) = .error e' ↔ (c ∧ e = e') ∨ (¬c ∧ x = .error e') := by
  by_cases hc : c
  · rw [if_pos hc]
    constructor
    · intro h
      cases h
      exact Or.inl ⟨hc, rfl⟩
    · rintro (⟨-, rfl⟩ | ⟨hnot, -⟩)
      · rfl
      · exact absurd hc hnot
  · rw [if_neg hc]
    constructor
    · exact fun h => Or.inr ⟨hc, h⟩
    · rintro (⟨hc', -⟩ | ⟨-, h⟩)
      · exact absurd hc' hc
      · exact h

section Run

variable {σ ι : Type} (step : σ → ι → Except ε σ)

/-- The state that a machine reaches from `s` on the inputs `es`, unless a step fails. -/
def run (s : σ) (es : List ι) : Except ε σ :=
  es.foldlM step s

@[simp] theorem run_nil (s : σ) : run step s [] = .ok s := rfl

theorem run_cons (s : σ) (e : ι) (es : List ι) :
    run step s (e :: es) = step s e >>= fun s' => run step s' es := by
  rw [run, List.foldlM_cons]
  rfl

/-- Every input of the run meets `P` in the state in which it is taken. -/
def Always (P : σ → ι → Prop) : σ → List ι → Prop
  | _, [] => True
  | s, e :: es => P s e ∧
      match step s e with
      | .ok t => Always P t es
      | .error _ => True

instance decidableAlways (P : σ → ι → Prop) [∀ s e, Decidable (P s e)] :
    ∀ (s : σ) (es : List ι), Decidable (Always step P s es)
  | _, [] => isTrue trivial
  | s, e :: es =>
    match hs : step s e with
    | .ok t =>
      have : Decidable (Always step P t es) := decidableAlways P t es
      decidable_of_iff (P s e ∧ Always step P t es) (by rw [Always, hs])
    | .error _ => decidable_of_iff (P s e) (by rw [Always, hs, and_true])

variable {step} {s s' : σ} {P : σ → ι → Prop}

theorem run_cons_eq_ok_iff {e : ι} {es : List ι} :
    run step s (e :: es) = .ok s' ↔ ∃ t, step s e = .ok t ∧ run step t es = .ok s' := by
  rw [run_cons, bind_eq_ok_iff]

theorem run_append_eq_ok_iff {es fs : List ι} :
    run step s (es ++ fs) = .ok s' ↔ ∃ t, run step s es = .ok t ∧ run step t fs = .ok s' := by
  rw [run, List.foldlM_append, bind_eq_ok_iff]
  rfl

/-- **The invariant rule**: what every admissible step preserves, an admissible run preserves. -/
theorem invariant {I : σ → Prop} (hstep : ∀ s e s', I s → P s e → step s e = .ok s' → I s')
    (hs : I s) {es : List ι} (hes : Always step P s es) (hrun : run step s es = .ok s') : I s' := by
  induction es generalizing s with
  | nil =>
    cases hrun
    exact hs
  | cons e es ih =>
    obtain ⟨t, ht, hrest⟩ := run_cons_eq_ok_iff.mp hrun
    obtain ⟨he, hes⟩ := hes
    rw [ht] at hes
    exact ih (hstep s e t hs he ht) hes hrest

end Run

end Fallible
