import Mathlib.Tactic
import Sponge.Util.EventLoop

/-!
# The life of a rule

The rules of an event loop are called, any number of times, and then cancelled. To say so, the rules
are given a log, which their callbacks extend; the log does not disturb the run, so that what it
tells is true of the run without it.

## Main definitions

* `EventLoop.logged`: the rules with a log
* `EventLoop.Chronicle`: what the log tells

## Main results

* `EventLoop.loop_logged`: the log does not disturb a run
* `rules_cancelled_once`: a rule is cancelled at most once, and never called after that
-/

namespace Sponge

namespace EventLoop

open Fallible (bind_eq_ok_iff)

variable {ι σ α : Type} {table : ι → Rule σ α} {rules rules' : List ι} {s s' : σ}

/-- What the loop does with a rule. -/
inductive Act where
  | called
  | cancelled
  deriving DecidableEq, Repr

/-- The rules, with a log of what was done with which of them. -/
def logged (table : ι → Rule σ α) (i : ι) : Rule (σ × List (ι × Act)) α where
  fd := fun s => (table i).fd s.1
  direction := (table i).direction
  callback := fun answer s =>
    ((table i).callback answer s.1).map fun t => (t, s.2 ++ [(i, .called)])
  interest := fun s => (table i).interest s.1
  cancel := fun s => ((table i).cancel s.1, s.2 ++ [(i, .cancelled)])

@[simp] theorem logged_direction (i : ι) :
    (logged table i).direction = (table i).direction := rfl

theorem prepare_logged (table : ι → Rule σ α) (rules : List ι) (s : σ) (log : List (ι × Act)) :
    ∃ log', prepare (logged table) rules (s, log) =
      ((prepare table rules s).1, ((prepare table rules s).2, log')) := by
  induction rules generalizing s log with
  | nil => exact ⟨log, rfl⟩
  | cons i rules ih =>
    unfold prepare
    change ∃ log', (if (table i).direction = .pollIn ∧ ((table i).fd s).eof = true then _
      else if ((table i).fd s).closed = true then _ else _) = _
    split_ifs
    · exact ih _ _
    · exact ih _ _
    · obtain ⟨log', hlog⟩ := ih s log
      refine ⟨log', ?_⟩
      rw [hlog]
      rfl

theorem call_logged {i : ι} {answer : α} (h : call (table i) answer s = .ok s')
    (log : List (ι × Act)) :
    call (logged table i) answer (s, log) = .ok (s', log ++ [(i, .called)]) := by
  obtain ⟨hcall, hserved⟩ := call_eq_ok_iff.mp h
  refine call_eq_ok_iff.mpr ⟨?_, hserved⟩
  change ((table i).callback answer s).map _ = _
  rw [hcall]
  rfl

theorem serve_logged {i : ι} {interested stays : Bool} {revents : Revents} {answer : α}
    (h : serve (table i) interested revents answer s = .ok (stays, s')) (log : List (ι × Act)) :
    ∃ log', serve (logged table i) interested revents answer (s, log) =
      .ok (stays, (s', log')) := by
  unfold serve at h ⊢
  rw [logged_direction]
  split_ifs at h ⊢ with hbad hhup hready
  · cases h
    exact ⟨_, rfl⟩
  · obtain ⟨t, hcall, heq⟩ := bind_eq_ok_iff.mp h
    cases heq
    exact ⟨_, bind_eq_ok_iff.mpr ⟨_, call_logged hcall log, rfl⟩⟩
  · cases h
    exact ⟨log, rfl⟩

theorem dispatch_logged {polled : List (ι × Bool)} {found : List (Revents × α)}
    (h : dispatch table polled found s = .ok (rules', s')) (log : List (ι × Act)) :
    ∃ log', dispatch (logged table) polled found (s, log) = .ok (rules', (s', log')) := by
  induction polled generalizing found s rules' log with
  | nil =>
    cases h
    exact ⟨log, rfl⟩
  | cons head polled ih =>
    obtain ⟨i, interested⟩ := head
    cases found with
    | nil =>
      cases h
      exact ⟨log, rfl⟩
    | cons head found =>
      obtain ⟨revents, answer⟩ := head
      obtain ⟨stays, t, rest, hserve, hrest, rfl⟩ := dispatch_cons_eq_ok_iff.mp h
      obtain ⟨log₁, hserve₁⟩ := serve_logged hserve log
      obtain ⟨log', hrest'⟩ := ih hrest log₁
      exact ⟨log', dispatch_cons_eq_ok_iff.mpr ⟨stays, _, rest, hserve₁, hrest', rfl⟩⟩

theorem waitNextEvent_logged {result : PollResult α} {outcome : Result}
    (h : waitNextEvent table result rules s = .ok (outcome, rules', s')) (log : List (ι × Act)) :
    ∃ log', waitNextEvent (logged table) result rules (s, log) =
      .ok (outcome, rules', (s', log')) := by
  obtain ⟨log₁, hprepare⟩ := prepare_logged table rules s log
  unfold waitNextEvent at h ⊢
  rw [hprepare]
  dsimp only at h ⊢
  split_ifs at h ⊢ with hnone
  · cases h
    exact ⟨log₁, rfl⟩
  · cases result with
    | timeout =>
      cases h
      exact ⟨log₁, rfl⟩
    | interrupted =>
      cases h
      exact ⟨log₁, rfl⟩
    | failed =>
      obtain ⟨⟨rest, t⟩, hrest, heq⟩ := bind_eq_ok_iff.mp h
      cases heq
      obtain ⟨log', hlog⟩ := dispatch_logged hrest log₁
      exact ⟨log', bind_eq_ok_iff.mpr ⟨_, hlog, rfl⟩⟩
    | ready revents =>
      obtain ⟨⟨rest, t⟩, hrest, heq⟩ := bind_eq_ok_iff.mp h
      cases heq
      obtain ⟨log', hlog⟩ := dispatch_logged hrest log₁
      exact ⟨log', bind_eq_ok_iff.mpr ⟨_, hlog, rfl⟩⟩

/-- **The log does not disturb a run.** -/
theorem loop_logged {results : List (PollResult α)} {done : Bool}
    (h : loop table results rules s = .ok (done, rules', s')) (log : List (ι × Act)) :
    ∃ log', loop (logged table) results rules (s, log) = .ok (done, rules', (s', log')) := by
  induction results generalizing rules s log with
  | nil =>
    cases h
    exact ⟨log, rfl⟩
  | cons result results ih =>
    obtain ⟨⟨outcome, rules₁, s₁⟩, hturn, hrest⟩ := bind_eq_ok_iff.mp h
    obtain ⟨log₁, hlog₁⟩ := waitNextEvent_logged hturn log
    dsimp only at hrest
    split_ifs at hrest with hexit
    · cases hrest
      exact ⟨log₁, bind_eq_ok_iff.mpr ⟨_, hlog₁, if_pos hexit⟩⟩
    · obtain ⟨log', hlog'⟩ := ih hrest log₁
      exact ⟨log', bind_eq_ok_iff.mpr ⟨_, hlog₁, (if_neg hexit).trans hlog'⟩⟩

/-- **The log tells the life of the rules** `all`, of which `rules` are left: a cancelled rule does
not occur again, and exactly the rules that are not left were cancelled. -/
structure Chronicle (all rules : List ι) (log : List (ι × Act)) : Prop where
  final : log.Pairwise fun e e' => e.2 = .cancelled → e'.1 ≠ e.1
  cancelled_iff : ∀ i, (i, .cancelled) ∈ log ↔ i ∈ all ∧ i ∉ rules
  mem : ∀ e ∈ log, e.1 ∈ all
  subset : rules ⊆ all

/-- An entry for a rule that is left. -/
theorem Chronicle.final_append {all : List ι} {log : List (ι × Act)} {i : ι} (act : Act)
    (h : Chronicle all rules log) (hi : i ∈ rules) :
    (log ++ [(i, act)]).Pairwise fun e e' => e.2 = .cancelled → e'.1 ≠ e.1 := by
  refine List.pairwise_append.mpr ⟨h.final, List.pairwise_singleton _ _, ?_⟩
  rintro ⟨j, act'⟩ hj e he hcancelled rfl
  rw [List.mem_singleton.mp he] at hj
  obtain rfl : act' = .cancelled := hcancelled
  exact ((h.cancelled_iff i).mp hj).2 hi

theorem Chronicle.safe [DecidableEq ι] (table : ι → Rule σ α) (all : List ι) :
    Safe (logged table) (fun _ _ _ => True) (fun rules s => Chronicle all rules s.2)
      (fun _ _ => True) True where
  arm := fun _ _ _ _ => trivial
  cancel_armed := fun _ _ _ _ => trivial
  call_armed := fun _ _ _ _ _ _ _ => trivial
  cancel := by
    intro i rules s hi hnodup h _
    refine ⟨h.final_append .cancelled hi, fun j => ?_, ?_, ?_⟩
    · change (j, Act.cancelled) ∈ s.2 ++ [(i, Act.cancelled)] ↔ _
      rw [List.mem_append, h.cancelled_iff, List.mem_singleton, Prod.mk.injEq, hnodup.mem_erase_iff]
      constructor
      · rintro (⟨hall, hnot⟩ | ⟨rfl, -⟩)
        · exact ⟨hall, fun hj => hnot hj.2⟩
        · exact ⟨h.subset hi, fun hj => hj.1 rfl⟩
      · rintro ⟨hall, hnot⟩
        by_cases heq : j = i
        · exact Or.inr ⟨heq, rfl⟩
        · exact Or.inl ⟨hall, fun hj => hnot ⟨heq, hj⟩⟩
    · intro e he
      rcases List.mem_append.mp he with he | he
      · exact h.mem e he
      · rw [List.mem_singleton.mp he]
        exact h.subset hi
    · exact fun j hj => h.subset (List.mem_of_mem_erase hj)
  call := by
    intro i rules s answer s' hi h _ _ hcall
    have hlog : s'.2 = s.2 ++ [(i, .called)] := by
      change ((table i).callback answer s.1).map _ = _ at hcall
      cases hback : (table i).callback answer s.1 with
      | error e =>
        rw [hback] at hcall
        cases hcall
      | ok t =>
        rw [hback] at hcall
        cases hcall
        rfl
    rw [hlog]
    refine ⟨h.final_append .called hi, fun j => ?_, ?_, h.subset⟩
    · rw [← h.cancelled_iff]
      simp
    · intro e he
      rcases List.mem_append.mp he with he | he
      · exact h.mem e he
      · rw [List.mem_singleton.mp he]
        exact h.subset hi

end EventLoop

/-- **A rule is cancelled at most once, and never called after that.** Whatever the rules do, what
`poll` returns and what the system answers, a run of the loop writes a log in which no entry of a
rule follows its cancellation; the rules that are left are those that were not cancelled, in the
order in which they were added, and no other rule is called or cancelled. The rules are given at the
start, so that a callback that adds a rule is not covered, and neither is a turn that throws. -/
theorem rules_cancelled_once {ι σ α : Type} [DecidableEq ι] (table : ι → Rule σ α)
    (rules : List ι) (hnodup : rules.Nodup) (s : σ) (results : List (PollResult α)) (done : Bool)
    (rules' : List ι) (s' : σ)
    (hrun : EventLoop.loop table results rules s = .ok (done, rules', s')) :
    ∃ log : List (ι × EventLoop.Act),
      EventLoop.loop (EventLoop.logged table) results rules (s, []) =
        .ok (done, rules', (s', log)) ∧
      log.Pairwise (fun e e' => e.2 = .cancelled → e'.1 ≠ e.1) ∧
      (∀ i, (i, .cancelled) ∈ log ↔ i ∈ rules ∧ i ∉ rules') ∧ (∀ e ∈ log, e.1 ∈ rules) ∧
      rules'.Sublist rules := by
  obtain ⟨log, hlog⟩ := EventLoop.loop_logged hrun []
  have hstart : EventLoop.Chronicle rules rules ([] : List (ι × EventLoop.Act)) :=
    ⟨List.Pairwise.nil, by simp, by simp, List.Subset.refl _⟩
  have hchronicle :=
    ((EventLoop.Chronicle.safe table rules).loop (s := (s, [])) hnodup hstart
      (fun _ _ _ => trivial) fun _ _ _ => trivial).1 _ _ _ hlog
  exact ⟨log, hlog, hchronicle.final, hchronicle.cancelled_iff, hchronicle.mem,
    EventLoop.loop_sublist hrun⟩

/-- A rule that reads a descriptor: it reads a byte, then sees the end of the file, and is cancelled
in the next turn, after which nothing is left to poll. -/
theorem rules_cancelled_once_reader :
    let table : Unit → Rule FileDescriptor (Except ℕ (List UInt8)) := fun _ =>
      { fd := id
        direction := .pollIn
        callback := fun answer fd => (fd.read 10 answer).map Prod.fst }
    ∃ log, EventLoop.loop (EventLoop.logged table)
        [.ready [({ pollIn := true }, .ok [7])], .ready [({ pollIn := true }, .ok [])], .timeout]
        [()] ({}, []) =
        .ok (true, [], ({ eof := true, readCount := 2, given := [7] }, log)) ∧
      log.Pairwise (fun e e' => e.2 = .cancelled → e'.1 ≠ e.1) ∧
      (∀ i, (i, .cancelled) ∈ log ↔ i ∈ [()] ∧ i ∉ []) ∧ (∀ e ∈ log, e.1 ∈ [()]) ∧
      [].Sublist [()] := by
  intro table
  exact rules_cancelled_once table [()] (by decide) ({} : FileDescriptor) _ true [] _ rfl

end Sponge
