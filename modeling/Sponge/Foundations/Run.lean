import Mathlib.Tactic

/-!
# Runs of a machine

A machine is a transition function `step : σ → ε → σ`; its runs are the lists of events it is fed.
A property of single steps is followed along a run by `Always`, and the rules below carry it from
one step to a whole run: the invariant rule, its relative form, and monotonicity.

## Main definitions

* `Run.exec step s es`: the state after the events `es`
* `Run.Always step P s es`: every event of the run meets `P` in the state it occurs in
* `Run.collect step out s es`: what the events of the run yield, in order

## Main results

* `Run.invariant`: what one step preserves, a run preserves
* `Run.always_of_invariant`, `Run.always_of_preserved`, `Run.always_congr`,
  `Run.always_congr_of_guarded`: step properties under an invariant
* `Run.related`: a preorder that every step respects relates the ends of a run
* `Run.always_related_iff`: every step respects a preorder if and only if any two states of the run
  are related
* `Run.simulation`: machines that are related step by step are related along runs
* `Run.conserved`: what enters along a run leaves along it or is still there
-/

namespace Run

variable {σ ε : Type*} (step : σ → ε → σ)

/-- The state a machine reaches from `s` on the events `es`. -/
def exec (s : σ) (es : List ε) : σ :=
  es.foldl step s

@[simp] theorem exec_nil (s : σ) : exec step s [] = s := rfl

@[simp] theorem exec_cons (s : σ) (e : ε) (es : List ε) :
    exec step s (e :: es) = exec step (step s e) es := rfl

@[simp] theorem exec_append (s : σ) (es fs : List ε) :
    exec step s (es ++ fs) = exec step (exec step s es) fs :=
  List.foldl_append

/-- A projection that follows the steps of a machine follows its runs. -/
theorem exec_map {σ' : Type*} {step' : σ' → ε → σ'} {f : σ → σ'}
    (hf : ∀ s e, f (step s e) = step' (f s) e) (s : σ) (es : List ε) :
    f (exec step s es) = exec step' (f s) es :=
  (List.foldl_hom f fun s e => (hf s e).symm).symm

/-- Every event of the run meets `P` in the state in which it occurs. -/
def Always (P : σ → ε → Prop) : σ → List ε → Prop
  | _, [] => True
  | s, e :: es => P s e ∧ Always P (step s e) es

@[simp] theorem always_nil (P : σ → ε → Prop) (s : σ) : Always step P s [] := trivial

@[simp] theorem always_cons {P : σ → ε → Prop} {s : σ} {e : ε} {es : List ε} :
    Always step P s (e :: es) ↔ P s e ∧ Always step P (step s e) es := Iff.rfl

instance decidableAlways (P : σ → ε → Prop) [∀ s e, Decidable (P s e)] :
    ∀ (s : σ) (es : List ε), Decidable (Always step P s es)
  | _, [] => isTrue trivial
  | s, e :: es =>
    have : Decidable (Always step P (step s e) es) := decidableAlways P (step s e) es
    inferInstanceAs (Decidable (P s e ∧ Always step P (step s e) es))

variable {step} {P Q : σ → ε → Prop} {I : σ → Prop}

theorem always_append {s : σ} {es fs : List ε} :
    Always step P s (es ++ fs) ↔
      Always step P s es ∧ Always step P (exec step s es) fs := by
  induction es generalizing s with
  | nil => simp
  | cons e es ih => simp [ih, and_assoc]

theorem always_and {s : σ} {es : List ε} :
    Always step (fun s e => P s e ∧ Q s e) s es ↔ Always step P s es ∧ Always step Q s es := by
  induction es generalizing s with
  | nil => simp
  | cons e es ih =>
    rw [always_cons, always_cons, always_cons, ih]
    exact and_and_and_comm

/-- A condition on the events alone. -/
theorem always_of_forall {R : ε → Prop} {s : σ} {es : List ε} (h : ∀ e ∈ es, R e) :
    Always step (fun _ e => R e) s es := by
  induction es generalizing s with
  | nil => trivial
  | cons e es ih =>
    exact ⟨h e List.mem_cons_self, ih fun e' he' => h e' (List.mem_cons_of_mem e he')⟩

/-- **The invariant rule**: what every admissible step preserves, every admissible run
preserves. -/
theorem invariant (hstep : ∀ s e, I s → P s e → I (step s e)) {s : σ} {es : List ε}
    (hs : I s) (hes : Always step P s es) : I (exec step s es) := by
  -- induction on the events, for every start: the first step reaches the next one
  induction es generalizing s with
  | nil => exact hs
  | cons e es ih => exact ih (hstep s e hs hes.1) hes.2

/-- The invariant rule for a machine without a guard. -/
theorem preserved (hstep : ∀ s e, I s → I (step s e)) {s : σ} (hs : I s) (es : List ε) :
    I (exec step s es) :=
  invariant (P := fun _ _ => True) (fun s e hi _ => hstep s e hi) hs
    (always_of_forall fun _ _ => trivial)

/-- A step property that holds under an invariant holds all along an admissible run. -/
theorem always_of_invariant (hstep : ∀ s e, I s → P s e → I (step s e))
    (hQ : ∀ s e, I s → P s e → Q s e) {s : σ} {es : List ε}
    (hs : I s) (hes : Always step P s es) : Always step Q s es := by
  induction es generalizing s with
  | nil => trivial
  | cons e es ih => exact ⟨hQ s e hs hes.1, ih (hstep s e hs hes.1) hes.2⟩

/-- A step property that holds under an invariant, for a machine without a guard. -/
theorem always_of_preserved (hstep : ∀ s e, I s → I (step s e)) (hQ : ∀ s e, I s → Q s e) {s : σ}
    (hs : I s) (es : List ε) : Always step Q s es :=
  always_of_invariant (P := fun _ _ => True) (fun s e hI _ => hstep s e hI)
    (fun s e hI _ => hQ s e hI) hs (always_of_forall fun _ _ => trivial)

/-- Step properties equivalent under an invariant that holds as long as they do are equivalent along
runs. -/
theorem always_congr_of_guarded (hstep : ∀ s e, I s → P s e → I (step s e))
    (hPQ : ∀ s e, I s → (P s e ↔ Q s e)) {s : σ} {es : List ε} (hs : I s) :
    Always step P s es ↔ Always step Q s es := by
  induction es generalizing s with
  | nil => exact Iff.rfl
  | cons e es ih =>
    rw [always_cons, always_cons, ← hPQ s e hs]
    exact and_congr_right fun hP => ih (hstep s e hs hP)

/-- Step properties equivalent under an invariant are equivalent along runs. -/
theorem always_congr (hstep : ∀ s e, I s → I (step s e))
    (hPQ : ∀ s e, I s → (P s e ↔ Q s e)) {s : σ} {es : List ε} (hs : I s) :
    Always step P s es ↔ Always step Q s es :=
  always_congr_of_guarded (fun s e hI _ => hstep s e hI) hPQ hs

/-- A reflexive and transitive relation that every admissible step respects relates the ends of an
admissible run. -/
theorem related {R : σ → σ → Prop} (hrefl : ∀ s, R s s)
    (htrans : ∀ {s t u}, R s t → R t u → R s u)
    (hstep : ∀ s e, I s → P s e → I (step s e))
    (hR : ∀ s e, I s → P s e → R s (step s e)) {s : σ} {es : List ε}
    (hs : I s) (hes : Always step P s es) : R s (exec step s es) := by
  induction es generalizing s with
  | nil => exact hrefl s
  | cons e es ih => exact htrans (hR s e hs hes.1) (ih (hstep s e hs hes.1) hes.2)

/-- The events of a run and the states in which they occur. -/
theorem always_iff_forall {s : σ} {es : List ε} :
    Always step P s es ↔
      ∀ before e, before ++ [e] <+: es → P (exec step s before) e := by
  constructor
  · rintro hes before e ⟨after, rfl⟩
    exact (always_append.mp (always_append.mp hes).1).2.1
  · intro h
    -- induction on the events, for every start
    induction es generalizing s with
    | nil => trivial
    | cons e es ih =>
      refine ⟨h [] e ⟨es, rfl⟩, ih fun before e' hpre => ?_⟩
      exact h (e :: before) e' (List.cons_prefix_cons.mpr ⟨rfl, hpre⟩)

/-- Every step of a run respects a preorder if and only if any two states of the run, the earlier
one first, are related. -/
theorem always_related_iff {R : σ → σ → Prop} (hrefl : ∀ s, R s s)
    (htrans : ∀ {s t u}, R s t → R t u → R s u) {s : σ} {es : List ε} :
    Always step (fun s e => R s (step s e)) s es ↔
      ∀ before later, before ++ later <+: es →
        R (exec step s before) (exec step s (before ++ later)) := by
  constructor
  · rintro hes before later ⟨after, rfl⟩
    have hlater := (always_append.mp (always_append.mp hes).1).2
    rw [exec_append]
    exact related (I := fun _ => True) hrefl htrans (fun _ _ _ _ => trivial)
      (fun _ _ _ h => h) trivial hlater
  · intro h
    rw [always_iff_forall]
    intro before e hpre
    have hstep := h before [e] hpre
    rwa [exec_append] at hstep

section Simulation

variable {τ : Type*} {step' : τ → ε → τ} {R : σ → τ → Prop}

/-- **The simulation rule**: two machines that every admissible step keeps related are related after
every admissible run. -/
theorem simulation (hstep : ∀ s t e, R s t → P s e → R (step s e) (step' t e)) {s : σ} {t : τ}
    {es : List ε} (h : R s t) (hes : Always step P s es) :
    R (exec step s es) (exec step' t es) := by
  induction es generalizing s t with
  | nil => exact h
  | cons e es ih => exact ih (hstep s t e h hes.1) hes.2

/-- The simulation rule for machines without a guard. -/
theorem simulated (hstep : ∀ s t e, R s t → R (step s e) (step' t e)) {s : σ} {t : τ} (h : R s t)
    (es : List ε) : R (exec step s es) (exec step' t es) :=
  simulation (P := fun _ _ => True) (fun s t e hR _ => hstep s t e hR) h
    (always_of_forall fun _ _ => trivial)

end Simulation

/-! ## What a run yields -/

section Collect

variable {β : Type*}

/-- What the events of a run yield, in order; an event yields `out s e` in the state `s`. -/
def collect (step : σ → ε → σ) (out : σ → ε → List β) : σ → List ε → List β
  | _, [] => []
  | s, e :: es => out s e ++ collect step out (step s e) es

@[simp] theorem collect_nil (out : σ → ε → List β) (s : σ) : collect step out s [] = [] := rfl

@[simp] theorem collect_cons (out : σ → ε → List β) (s : σ) (e : ε) (es : List ε) :
    collect step out s (e :: es) = out s e ++ collect step out (step s e) es := rfl

/-- **Conservation along a run**: if every step moves what enters and what leaves through the
contents of the state, in order, then so does a run. -/
theorem conserved (content : σ → List β) {inflow outflow : σ → ε → List β}
    (hstep : ∀ s e, I s → I (step s e))
    (hflow : ∀ s e, I s → content s ++ inflow s e = outflow s e ++ content (step s e))
    {s : σ} (hs : I s) (es : List ε) :
    content s ++ collect step inflow s es =
      collect step outflow s es ++ content (exec step s es) := by
  -- induction on the events: the first step hands its contents to the rest of the run
  induction es generalizing s with
  | nil => simp
  | cons e es ih =>
    calc content s ++ (inflow s e ++ collect step inflow (step s e) es)
        = outflow s e ++ (content (step s e) ++ collect step inflow (step s e) es) := by
          rw [← List.append_assoc, hflow s e hs, List.append_assoc]
      _ = outflow s e ++ collect step outflow (step s e) es ++
            content (exec step (step s e) es) := by
          rw [ih (hstep s e hs), List.append_assoc]

/-- A counter that every step advances by what the step yields counts what a run yields. -/
theorem counted (counter : σ → ℕ) {out : σ → ε → List β} (hstep : ∀ s e, I s → I (step s e))
    (hcount : ∀ s e, I s → counter (step s e) = counter s + (out s e).length)
    {s : σ} (hs : I s) (es : List ε) :
    counter (exec step s es) = counter s + (collect step out s es).length := by
  induction es generalizing s with
  | nil => rfl
  | cons e es ih =>
    rw [exec_cons, ih (hstep s e hs), hcount s e hs, collect_cons, List.length_append,
      Nat.add_assoc]

end Collect

end Run
