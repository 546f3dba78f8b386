import Mathlib.Tactic
import Sponge.Util.FileDescriptor

/-!
# The event loop

An `EventLoop` holds rules. Each turn asks every rule whether it is interested, polls the file
descriptors, and calls back the rules whose descriptor is ready; a rule whose descriptor is at its
end, closed or hung up is cancelled and removed.

The callbacks are closures over variables of the program. Here these variables are a state, and the
callbacks are functions on it; a rule is known by a name, and a table says what it does. What `poll`
returns, and what the system answers to a callback, are arguments of a turn.

A callback that runs late in a turn was found interested at the beginning of the turn, and the
callbacks before it may have changed the state since. `EventLoop.Safe` therefore asks for an
invariant and, for each rule, for a condition that its interest establishes and the other rules
keep. What an invariant asks of the answers is stated in the state in which they are given.

## Main definitions

* `Rule`, `PollResult`: rules, and the results of polling
* `EventLoop.prepare`, `EventLoop.dispatch`, `EventLoop.waitNextEvent`: a turn of the loop
* `EventLoop.loop`: turns until the loop exits
* `EventLoop.FairTurn`: the answers of a turn are fair
* `EventLoop.Safe`: what the rules must satisfy for an invariant to hold

## Main results

* `EventLoop.Safe.waitNextEvent`, `EventLoop.Safe.loop`: the invariant of every turn and every run
* `EventLoop.callback_error_of_serves`: rules that serve their descriptor never cause a busy wait
* `EventLoop.uninterested_of_done`: the loop exits when no rule is interested
-/

namespace Sponge

/-- Whether a rule waits to read or to write. -/
inductive Direction where
  | pollIn
  | pollOut
  deriving DecidableEq, Repr

/-- The conditions that `poll` found on a file descriptor. -/
structure Revents where
  pollIn : Bool := false
  pollOut : Bool := false
  pollErr : Bool := false
  pollHup : Bool := false
  pollNval : Bool := false
  deriving DecidableEq, Repr

/-- The condition that a rule waits for. -/
def Revents.has (revents : Revents) : Direction → Bool
  | .pollIn => revents.pollIn
  | .pollOut => revents.pollOut

/-- What `poll` returned: the conditions found, each with the answers of the system to the callback
that it causes, or that the time was up, or that a signal was caught (`EINTR`), or another error. -/
inductive PollResult (α : Type) where
  | ready (revents : List (Revents × α))
  | timeout
  | interrupted
  | failed

/-- A descriptor was found hung up. -/
def PollResult.HungUp {α : Type} : PollResult α → Prop
  | .ready revents => ∃ found ∈ revents, found.1.pollHup = true
  | _ => False

instance {α : Type} : ∀ result : PollResult α, Decidable result.HungUp
  | .ready revents => inferInstanceAs (Decidable (∃ found ∈ revents, found.1.pollHup = true))
  | .timeout => isFalse id
  | .interrupted => isFalse id
  | .failed => isFalse id

/-- A rule over a state `σ`; the answers of the system to its callback are of type `α`. -/
structure Rule (σ α : Type) where
  /-- the descriptor to poll, which the rule shares with the program -/
  fd : σ → FileDescriptor
  direction : Direction
  callback : α → σ → Except SystemException σ
  interest : σ → Bool := fun _ => true
  cancel : σ → σ := id

/-- How often the descriptor has been read or written, as the direction says. -/
def Rule.serviceCount {σ α : Type} (rule : Rule σ α) (s : σ) : UInt32 :=
  match rule.direction with
  | .pollIn => (rule.fd s).readCount
  | .pollOut => (rule.fd s).writeCount

namespace EventLoop

/-- What a turn returns. -/
inductive Result where
  | success
  | timeout
  | exit
  deriving DecidableEq, Repr

/-- What is thrown if `poll` finds an error condition. -/
def pollError : SystemException :=
  .std (.runtimeError "EventLoop: error on polled file descriptor")

/-- What is thrown if a callback has left its descriptor as it was, and would be called again at
once. -/
def busyWait : SystemException :=
  .std (.runtimeError
    "EventLoop: busy wait detected: callback did not read/write fd and is still interested")

theorem busyWait_ne_pollError : busyWait ≠ pollError := by
  decide

theorem not_fromSystem_busyWait : ¬busyWait.FromSystem := by
  simp [busyWait, SystemException.FromSystem]

variable {ι σ α : Type} (table : ι → Rule σ α)

/-- The first loop of `wait_next_event`: the rules that stay, each with its interest. -/
def prepare : List ι → σ → List (ι × Bool) × σ
  | [], s => ([], s)
  | i :: rules, s =>
    -- no more reading on this rule
    if (table i).direction = .pollIn ∧ ((table i).fd s).eof = true then
      prepare rules ((table i).cancel s)
    else if ((table i).fd s).closed then
      prepare rules ((table i).cancel s)
    else
      let rest := prepare rules s
      ((i, (table i).interest s) :: rest.1, rest.2)

/-- The callback of a rule that is ready. It must use its descriptor or lose its interest. -/
def call (rule : Rule σ α) (answer : α) (s : σ) : Except SystemException σ := do
  let s' ← rule.callback answer s
  if rule.serviceCount s = rule.serviceCount s' ∧ rule.interest s' = true then
    throw busyWait
  return s'

/-- What happens to a polled rule, given what was found on its descriptor; the first component says
whether the rule stays. -/
def serve (rule : Rule σ α) (interested : Bool) (revents : Revents) (answer : α) (s : σ) :
    Except SystemException (Bool × σ) :=
  if revents.pollErr || revents.pollNval then
    throw pollError
  else if revents.pollHup && interested && !(revents.has rule.direction) then
    -- hung up, and nothing else: the descriptor is defunct
    return (false, rule.cancel s)
  else if interested && revents.has rule.direction then do
    let s ← call rule answer s
    return (true, s)
  else
    return (true, s)

/-- The second loop of `wait_next_event`, through the polled rules and what was found on them: the
rules that stay. -/
def dispatch : List (ι × Bool) → List (Revents × α) → σ → Except SystemException (List ι × σ)
  | [], _, s => return ([], s)
  | polled, [], s => return (polled.map Prod.fst, s)
  | (i, interested) :: polled, (revents, answer) :: found, s => do
    let (stays, s) ← serve (table i) interested revents answer s
    let (rest, s) ← dispatch polled found s
    return (if stays then i :: rest else rest, s)

/-- A turn of the event loop. An error of `poll` other than `EINTR` is caught and ignored. -/
def waitNextEvent (result : PollResult α) (rules : List ι) (s : σ) :
    Except SystemException (Result × List ι × σ) := do
  let (polled, s) := prepare table rules s
  if !polled.any Prod.snd then
    return (.exit, polled.map Prod.fst, s)
  match result with
  | .timeout => return (.timeout, polled.map Prod.fst, s)
  | .interrupted => return (.exit, polled.map Prod.fst, s)
  | .failed =>
    let rest ← dispatch table polled [] s
    return (.success, rest)
  | .ready revents =>
    let rest ← dispatch table polled revents s
    return (.success, rest)

/-- Turns, one for each result of `poll`, until the loop exits; the first component says whether it
has. -/
def loop : List (PollResult α) → List ι → σ → Except SystemException (Bool × List ι × σ)
  | [], rules, s => return (false, rules, s)
  | result :: results, rules, s => do
    let (outcome, rules, s) ← waitNextEvent table result rules s
    if outcome = .exit then return (true, rules, s)
    else loop results rules s

open Fallible (bind_eq_ok_iff bind_eq_error_iff ite_throw_eq_ok_iff)

variable {table} {rules rules' : List ι} {s s' : σ}

/-! ## What a turn does -/

theorem call_eq_ok_iff {rule : Rule σ α} {answer : α} :
    call rule answer s = .ok s' ↔ rule.callback answer s = .ok s' ∧
      (rule.serviceCount s = rule.serviceCount s' → rule.interest s' = false) := by
  simp only [call, bind_eq_ok_iff, ite_throw_eq_ok_iff, pure_eq_ok]
  constructor
  · rintro ⟨t, hcall, hserved, heq⟩
    cases heq
    exact ⟨hcall, fun hcount => by simpa [hcount] using hserved⟩
  · rintro ⟨hcall, hserved⟩
    exact ⟨s', hcall, fun h => by simp [hserved h.1] at h, rfl⟩

/-- The rules that are polled are rules of the loop, in their order. -/
theorem prepare_sublist (rules : List ι) (s : σ) :
    ((prepare table rules s).1.map Prod.fst).Sublist rules := by
  induction rules generalizing s with
  | nil => exact List.Sublist.slnil
  | cons i rules ih =>
    unfold prepare
    split_ifs
    · exact (ih _).cons i
    · exact (ih _).cons i
    · exact (ih _).cons_cons i

/-- **What happens to a polled rule**: it is cancelled, called or left alone. -/
theorem serve_eq_ok {rule : Rule σ α} {interested stays : Bool} {revents : Revents} {answer : α}
    (h : serve rule interested revents answer s = .ok (stays, s')) :
    (stays = false ∧ s' = rule.cancel s ∧ interested = true ∧ revents.pollHup = true) ∨
      (stays = true ∧ (s' = s ∨ (interested = true ∧ revents.has rule.direction = true ∧
        call rule answer s = .ok s'))) := by
  unfold serve at h
  split_ifs at h with hbad hhup hready
  · cases h
    rw [Bool.and_eq_true, Bool.and_eq_true] at hhup
    exact Or.inl ⟨rfl, rfl, hhup.1.2, hhup.1.1⟩
  · obtain ⟨t, hcall, heq⟩ := bind_eq_ok_iff.mp h
    cases heq
    rw [Bool.and_eq_true] at hready
    exact Or.inr ⟨rfl, Or.inr ⟨hready.1, hready.2, hcall⟩⟩
  · cases h
    exact Or.inr ⟨rfl, Or.inl rfl⟩

/-- What is thrown when a polled rule is served: an error that `poll` found, or what the callback
throws. -/
theorem serve_eq_error {rule : Rule σ α} {interested : Bool} {revents : Revents} {answer : α}
    {e : SystemException} (h : serve rule interested revents answer s = .error e) :
    e = pollError ∨ (interested = true ∧ call rule answer s = .error e) := by
  unfold serve at h
  split_ifs at h with hbad hhup hready
  · cases h
    exact Or.inl rfl
  · cases h
  · rw [Bool.and_eq_true] at hready
    rcases bind_eq_error_iff.mp h with hcall | ⟨t, -, hpure⟩
    · exact Or.inr ⟨hready.1, hcall⟩
    · cases hpure
  · cases h

theorem dispatch_cons_eq_ok_iff {i : ι} {interested : Bool} {polled : List (ι × Bool)}
    {revents : Revents} {answer : α} {found : List (Revents × α)} :
    dispatch table ((i, interested) :: polled) ((revents, answer) :: found) s =
        .ok (rules', s') ↔
      ∃ stays t rest, serve (table i) interested revents answer s = .ok (stays, t) ∧
        dispatch table polled found t = .ok (rest, s') ∧
        rules' = if stays then i :: rest else rest := by
  rw [dispatch, bind_eq_ok_iff]
  constructor
  · rintro ⟨⟨stays, t⟩, hserve, h⟩
    obtain ⟨⟨rest, s₁⟩, hrest, heq⟩ := bind_eq_ok_iff.mp h
    cases heq
    exact ⟨stays, t, rest, hserve, hrest, rfl⟩
  · rintro ⟨stays, t, rest, hserve, hrest, rfl⟩
    exact ⟨(stays, t), hserve, bind_eq_ok_iff.mpr ⟨(rest, s'), hrest, rfl⟩⟩

theorem dispatch_sublist {polled : List (ι × Bool)} {found : List (Revents × α)}
    (h : dispatch table polled found s = .ok (rules', s')) :
    rules'.Sublist (polled.map Prod.fst) := by
  induction polled generalizing found s rules' with
  | nil =>
    cases h
    exact List.Sublist.slnil
  | cons head polled ih =>
    obtain ⟨i, interested⟩ := head
    cases found with
    | nil =>
      cases h
      exact List.Sublist.refl _
    | cons head found =>
      obtain ⟨revents, answer⟩ := head
      obtain ⟨stays, t, rest, -, hrest, rfl⟩ := dispatch_cons_eq_ok_iff.mp h
      cases stays with
      | false => exact (ih hrest).cons i
      | true => exact (ih hrest).cons_cons i

/-- **What a turn does**: it prepares the rules, and then dispatches what was found unless it
exits or the time was up. -/
theorem waitNextEvent_eq_ok {result : PollResult α} {outcome : Result}
    (h : waitNextEvent table result rules s = .ok (outcome, rules', s')) :
    (rules' = (prepare table rules s).1.map Prod.fst ∧ s' = (prepare table rules s).2) ∨
      ∃ found, dispatch table (prepare table rules s).1 found (prepare table rules s).2 =
        .ok (rules', s') ∧ (found = [] ∨ result = .ready found) := by
  unfold waitNextEvent at h
  dsimp only at h
  split_ifs at h with hnone
  · cases h
    exact Or.inl ⟨rfl, rfl⟩
  · cases result with
    | timeout =>
      cases h
      exact Or.inl ⟨rfl, rfl⟩
    | interrupted =>
      cases h
      exact Or.inl ⟨rfl, rfl⟩
    | failed =>
      obtain ⟨rest, hrest, heq⟩ := bind_eq_ok_iff.mp h
      cases heq
      exact Or.inr ⟨[], hrest, Or.inl rfl⟩
    | ready revents =>
      obtain ⟨rest, hrest, heq⟩ := bind_eq_ok_iff.mp h
      cases heq
      exact Or.inr ⟨revents, hrest, Or.inr rfl⟩

theorem waitNextEvent_eq_error {result : PollResult α} {e : SystemException}
    (h : waitNextEvent table result rules s = .error e) :
    ∃ found, dispatch table (prepare table rules s).1 found (prepare table rules s).2 =
      .error e ∧ (found = [] ∨ result = .ready found) := by
  unfold waitNextEvent at h
  dsimp only at h
  split_ifs at h with hnone
  · cases h
  · cases result with
    | timeout => cases h
    | interrupted => cases h
    | failed =>
      rcases bind_eq_error_iff.mp h with hdispatch | ⟨rest, -, hpure⟩
      · exact ⟨[], hdispatch, Or.inl rfl⟩
      · cases hpure
    | ready revents =>
      rcases bind_eq_error_iff.mp h with hdispatch | ⟨rest, -, hpure⟩
      · exact ⟨revents, hdispatch, Or.inr rfl⟩
      · cases hpure

theorem waitNextEvent_sublist {result : PollResult α} {outcome : Result}
    (h : waitNextEvent table result rules s = .ok (outcome, rules', s')) :
    rules'.Sublist rules := by
  rcases waitNextEvent_eq_ok h with ⟨rfl, -⟩ | ⟨found, hdispatch, -⟩
  · exact prepare_sublist rules s
  · exact (dispatch_sublist hdispatch).trans (prepare_sublist rules s)

theorem loop_sublist {results : List (PollResult α)} {done : Bool}
    (h : loop table results rules s = .ok (done, rules', s')) : rules'.Sublist rules := by
  induction results generalizing rules s with
  | nil =>
    cases h
    exact List.Sublist.refl _
  | cons result results ih =>
    obtain ⟨⟨outcome, rules₁, s₁⟩, hturn, hrest⟩ := bind_eq_ok_iff.mp h
    have hfirst := waitNextEvent_sublist hturn
    dsimp only at hrest
    split_ifs at hrest
    · cases hrest
      exact hfirst
    · exact (ih hrest).trans hfirst

/-! ## Invariants -/

/-- **The answers to the callbacks are fair**: each of them is, in the state in which its rule is
called. -/
def FairDispatch (table : ι → Rule σ α) (Fair : ι → α → σ → Prop) :
    List (ι × Bool) → List (Revents × α) → σ → Prop
  | (i, interested) :: polled, (revents, answer) :: found, s =>
    ((interested && revents.has (table i).direction) = true → Fair i answer s) ∧
      match serve (table i) interested revents answer s with
      | .ok (_, t) => FairDispatch table Fair polled found t
      | .error _ => True
  | _, _, _ => True

/-- The same for the callbacks of a turn. -/
def FairTurn (table : ι → Rule σ α) (Fair : ι → α → σ → Prop) (result : PollResult α)
    (rules : List ι) (s : σ) : Prop :=
  match result with
  | .ready found =>
    FairDispatch table Fair (prepare table rules s).1 found (prepare table rules s).2
  | _ => True

section Fair

variable {Fair : ι → α → σ → Prop}

instance decidableFairDispatch [∀ i answer s, Decidable (Fair i answer s)] :
    ∀ polled found s, Decidable (FairDispatch table Fair polled found s)
  | (i, interested) :: polled, (revents, answer) :: found, s =>
    match hserve : serve (table i) interested revents answer s with
    | .ok (stays, t) =>
      have : Decidable (FairDispatch table Fair polled found t) :=
        decidableFairDispatch polled found t
      decidable_of_iff (((interested && revents.has (table i).direction) = true →
          Fair i answer s) ∧ FairDispatch table Fair polled found t) (by
        rw [FairDispatch, hserve])
    | .error _ =>
      decidable_of_iff ((interested && revents.has (table i).direction) = true →
          Fair i answer s) (by rw [FairDispatch, hserve, and_true])
  | [], _, _ => isTrue trivial
  | _ :: _, [], _ => isTrue trivial

instance [∀ i answer s, Decidable (Fair i answer s)] (result : PollResult α) (rules : List ι)
    (s : σ) : Decidable (FairTurn table Fair result rules s) :=
  match result with
  | .ready found => decidableFairDispatch (prepare table rules s).1 found (prepare table rules s).2
  | .timeout => isTrue trivial
  | .interrupted => isTrue trivial
  | .failed => isTrue trivial

theorem fairDispatch_nil {polled : List (ι × Bool)} : FairDispatch table Fair polled [] s := by
  cases polled <;> trivial

theorem fairDispatch_of_forall (h : ∀ i answer s, Fair i answer s) (polled : List (ι × Bool))
    (found : List (Revents × α)) (s : σ) : FairDispatch table Fair polled found s := by
  induction polled generalizing found s with
  | nil => trivial
  | cons head polled ih =>
    cases found with
    | nil => trivial
    | cons answer found =>
      refine ⟨fun _ => h _ _ _, ?_⟩
      split
      · exact ih _ _
      · trivial

theorem fairTurn_of_forall (h : ∀ i answer s, Fair i answer s) (result : PollResult α)
    (rules : List ι) (s : σ) : FairTurn table Fair result rules s := by
  cases result with
  | ready found => exact fairDispatch_of_forall h _ _ _
  | _ => trivial

end Fair

/-- **What the rules must satisfy** for `I` to hold in every run whose answers are fair. `I` may
speak of the rules that are left. `Armed i` is what rule `i` may rely on when it is called: it holds
when the rule is found interested, and the other rules keep it. A rule is cancelled because its
descriptor is at its end or closed, or because it hung up, which happens only if `hup` holds. -/
structure Safe [DecidableEq ι] (table : ι → Rule σ α) (Fair : ι → α → σ → Prop)
    (I : List ι → σ → Prop) (Armed : ι → σ → Prop) (hup : Prop) : Prop where
  arm : ∀ {i rules s}, i ∈ rules → I rules s →
    ¬((table i).direction = .pollIn ∧ ((table i).fd s).eof = true) →
    (table i).interest s = true → Armed i s
  cancel : ∀ {i rules s}, i ∈ rules → rules.Nodup → I rules s →
    ((table i).direction = .pollIn ∧ ((table i).fd s).eof = true) ∨
      ((table i).fd s).closed = true ∨ hup →
    I (rules.erase i) ((table i).cancel s)
  cancel_armed : ∀ {i j rules s}, i ∈ rules → j ≠ i → I rules s → Armed j s →
    Armed j ((table i).cancel s)
  call : ∀ {i rules s answer s'}, i ∈ rules → I rules s → Armed i s → Fair i answer s →
    (table i).callback answer s = .ok s' → I rules s'
  call_armed : ∀ {i j rules s answer s'}, i ∈ rules → j ≠ i → I rules s → Armed i s →
    Fair i answer s → Armed j s → (table i).callback answer s = .ok s' → Armed j s'

/-- The callback of a rule throws, or it does not serve its descriptor, in a state in which the
invariant holds and the rule is armed. -/
def Throws (table : ι → Rule σ α) (I : List ι → σ → Prop) (Armed : ι → σ → Prop)
    (e : SystemException) : Prop :=
  ∃ i rules s answer, I rules s ∧ Armed i s ∧ call (table i) answer s = .error e

/-- Nothing is asked of rules of which nothing is claimed. -/
theorem safe_true [DecidableEq ι] (table : ι → Rule σ α) :
    Safe table (fun _ _ _ => True) (fun _ _ => True) (fun _ _ => True) True where
  arm := fun _ _ _ _ => trivial
  cancel := fun _ _ _ _ => trivial
  cancel_armed := fun _ _ _ _ => trivial
  call := fun _ _ _ _ _ => trivial
  call_armed := fun _ _ _ _ _ _ _ => trivial

namespace Safe

variable [DecidableEq ι] {Fair : ι → α → σ → Prop} {I : List ι → σ → Prop} {Armed : ι → σ → Prop}
  {hup : Prop} (h : Safe table Fair I Armed hup)

theorem erase_middle {i : ι} {before after : List ι} (hnodup : (before ++ i :: after).Nodup) :
    (before ++ i :: after).erase i = before ++ after := by
  have hnot : i ∉ before := fun hmem =>
    (List.nodup_append.mp hnodup).2.2 i hmem i List.mem_cons_self rfl
  rw [List.erase_append_right _ hnot, List.erase_cons_head]

include h

/-- A rule in the middle is cancelled. -/
theorem cancel_middle {i : ι} {before after : List ι} (hnodup : (before ++ i :: after).Nodup)
    (hI : I (before ++ i :: after) s)
    (hreason : ((table i).direction = .pollIn ∧ ((table i).fd s).eof = true) ∨
      ((table i).fd s).closed = true ∨ hup) :
    I (before ++ after) ((table i).cancel s) := by
  have hcancel := h.cancel (List.mem_append_right before List.mem_cons_self) hnodup hI hreason
  rwa [erase_middle hnodup] at hcancel

/-- The first loop keeps the invariant, and arms the rules that are interested; `before` are the
rules that it has passed, of which those in `armed` are armed. -/
theorem prepare (before rules armed : List ι) (hnodup : (before ++ rules).Nodup)
    (hI : I (before ++ rules) s) (harmed : ∀ i ∈ armed, i ∈ before ∧ Armed i s) :
    I (before ++ (prepare table rules s).1.map Prod.fst) (prepare table rules s).2 ∧
      (∀ i ∈ armed, Armed i (EventLoop.prepare table rules s).2) ∧
      ∀ i, (i, true) ∈ (EventLoop.prepare table rules s).1 →
        Armed i (EventLoop.prepare table rules s).2 := by
  induction rules generalizing before armed s with
  | nil => exact ⟨hI, fun i hi => (harmed i hi).2, by simp [EventLoop.prepare]⟩
  | cons i rules ih =>
    have hmem : i ∈ before ++ i :: rules := List.mem_append_right before List.mem_cons_self
    have hrest : (before ++ rules).Nodup :=
      hnodup.sublist ((List.Sublist.refl before).append (List.sublist_cons_self i rules))
    have hne : ∀ j ∈ before, j ≠ i := fun j hj heq =>
      (List.nodup_append.mp hnodup).2.2 j hj i List.mem_cons_self heq
    -- the rule is cancelled, for one of two reasons, or it stays
    have hcancelled := fun hreason => ih before armed hrest
      (h.cancel_middle hnodup hI hreason) fun j hj =>
        ⟨(harmed j hj).1, h.cancel_armed hmem (hne j (harmed j hj).1) hI (harmed j hj).2⟩
    unfold EventLoop.prepare
    split_ifs with heof hclosed
    · exact hcancelled (Or.inl heof)
    · exact hcancelled (Or.inr (Or.inl hclosed))
    · have hassoc : before ++ i :: rules = before ++ [i] ++ rules := by simp
      have hstay := ih (before ++ [i]) (if (table i).interest s then i :: armed else armed)
        (hassoc ▸ hnodup) (hassoc ▸ hI) (by
          intro j hj
          split_ifs at hj with hinterest
          · rcases List.mem_cons.mp hj with rfl | hj
            · exact ⟨by simp, h.arm hmem hI heof hinterest⟩
            · exact ⟨List.mem_append_left _ (harmed j hj).1, (harmed j hj).2⟩
          · exact ⟨List.mem_append_left _ (harmed j hj).1, (harmed j hj).2⟩)
      obtain ⟨hinv, hkept, hnew⟩ := hstay
      refine ⟨by simpa using hinv, fun j hj => hkept j ?_, fun j hj => ?_⟩
      · split_ifs
        · exact List.mem_cons_of_mem i hj
        · exact hj
      · rcases List.mem_cons.mp hj with heq | hj
        · obtain ⟨rfl, hinterest⟩ := Prod.mk.inj heq
          exact hkept j (by rw [if_pos hinterest.symm]; exact List.mem_cons_self)
        · exact hnew j hj

/-- **The second loop** keeps the invariant, and throws what a callback throws or what `poll` has
found. -/
theorem dispatch (before : List ι) {polled : List (ι × Bool)} {found : List (Revents × α)}
    (hnodup : (before ++ polled.map Prod.fst).Nodup) (hI : I (before ++ polled.map Prod.fst) s)
    (harmed : ∀ i, (i, true) ∈ polled → Armed i s)
    (hfair : FairDispatch table Fair polled found s)
    (hhup : ∀ e ∈ found, e.1.pollHup = true → hup) :
    (∀ rules' s', dispatch table polled found s = .ok (rules', s') → I (before ++ rules') s') ∧
      ∀ e, EventLoop.dispatch table polled found s = .error e →
        e = pollError ∨ Throws table I Armed e := by
  -- induction on the rules that are left; what came before them is only carried along
  induction polled generalizing before found s with
  | nil => exact ⟨fun rules' s' hok => by cases hok; exact hI, fun e herr => by cases herr⟩
  | cons head polled ih =>
    obtain ⟨i, interested⟩ := head
    cases found with
    | nil => exact ⟨fun rules' s' hok => by cases hok; exact hI, fun e herr => by cases herr⟩
    | cons head found =>
      obtain ⟨revents, answer⟩ := head
      rw [List.map_cons] at hnodup hI
      have hmem : i ∈ before ++ i :: polled.map Prod.fst :=
        List.mem_append_right before List.mem_cons_self
      have hne : ∀ j, (j, true) ∈ polled → j ≠ i := by
        rintro j hj rfl
        exact (List.nodup_cons.mp (List.nodup_append.mp hnodup).2.1).1
          (List.mem_map.mpr ⟨_, hj, rfl⟩)
      have htail : ∀ j, (j, true) ∈ polled → Armed j s := fun j hj =>
        harmed j (List.mem_cons_of_mem _ hj)
      have hassoc : before ++ i :: polled.map Prod.fst =
          before ++ [i] ++ polled.map Prod.fst := by simp
      obtain ⟨hhead, hfound⟩ := List.forall_mem_cons.mp hhup
      obtain ⟨hanswer, hfair⟩ := hfair
      cases hserve : serve (table i) interested revents answer s with
      | error e =>
        refine ⟨fun rules' s' hok => ?_, fun e' herr => ?_⟩
        · obtain ⟨stays, t, rest, hserve', -⟩ := dispatch_cons_eq_ok_iff.mp hok
          rw [hserve] at hserve'
          cases hserve'
        · rw [EventLoop.dispatch, hserve] at herr
          cases herr
          refine (serve_eq_error hserve).imp_right fun hcall => ?_
          obtain ⟨rfl, hcall⟩ := hcall
          exact ⟨i, _, s, answer, hI, harmed i List.mem_cons_self, hcall⟩
      | ok r =>
        obtain ⟨stays, t⟩ := r
        rw [hserve] at hfair
        -- the rule is cancelled and goes, or it stays
        have hstep : I (before ++ (if stays then [i] else []) ++ polled.map Prod.fst) t ∧
            (before ++ (if stays then [i] else []) ++ polled.map Prod.fst).Nodup ∧
            ∀ j, (j, true) ∈ polled → Armed j t := by
          rcases serve_eq_ok hserve with ⟨rfl, rfl, -, hhung⟩ | ⟨rfl, rfl | ⟨rfl, hhas, hcall⟩⟩
          · rw [if_neg Bool.false_ne_true, List.append_nil]
            exact ⟨h.cancel_middle hnodup hI (Or.inr (Or.inr (hhead hhung))),
              hnodup.sublist ((List.Sublist.refl before).append (List.sublist_cons_self _ _)),
              fun j hj => h.cancel_armed hmem (hne j hj) hI (htail j hj)⟩
          · exact ⟨hassoc ▸ hI, hassoc ▸ hnodup, htail⟩
          · have hi := harmed i List.mem_cons_self
            have hback := (call_eq_ok_iff.mp hcall).1
            have hfair := hanswer (by simpa using hhas)
            exact ⟨hassoc ▸ h.call hmem hI hi hfair hback, hassoc ▸ hnodup,
              fun j hj => h.call_armed hmem (hne j hj) hI hi hfair (htail j hj) hback⟩
        obtain ⟨hinv, hnodup', harmed'⟩ := hstep
        obtain ⟨hok', herr'⟩ := ih _ hnodup' hinv harmed' hfair hfound
        refine ⟨fun rules' s' hok => ?_, fun e herr => ?_⟩
        · obtain ⟨stays', t', rest, hserve', hrest, rfl⟩ := dispatch_cons_eq_ok_iff.mp hok
          rw [hserve] at hserve'
          cases hserve'
          have := hok' rest s' hrest
          cases stays <;> simpa using this
        · rw [EventLoop.dispatch, hserve, ok_bind] at herr
          rcases bind_eq_error_iff.mp herr with hrest | ⟨r, -, hpure⟩
          · exact herr' e hrest
          · cases hpure

/-- **A turn** keeps the invariant, and throws what a callback throws or what `poll` has found. -/
theorem waitNextEvent {result : PollResult α} (hnodup : rules.Nodup) (hI : I rules s)
    (hfair : FairTurn table Fair result rules s) (hhup : result.HungUp → hup) :
    (∀ outcome rules' s', waitNextEvent table result rules s = .ok (outcome, rules', s') →
        I rules' s') ∧
      ∀ e, EventLoop.waitNextEvent table result rules s = .error e →
        e = pollError ∨ Throws table I Armed e := by
  obtain ⟨hinv, -, harmed⟩ := h.prepare [] rules [] hnodup hI (by simp)
  -- what was found is dispatched, which is nothing if `poll` has failed
  have hdispatch : ∀ found, found = [] ∨ result = .ready found →
      (∀ rules' s', EventLoop.dispatch table (EventLoop.prepare table rules s).1 found
          (EventLoop.prepare table rules s).2 = .ok (rules', s') → I rules' s') ∧
        ∀ e, EventLoop.dispatch table (EventLoop.prepare table rules s).1 found
          (EventLoop.prepare table rules s).2 = .error e →
          e = pollError ∨ Throws table I Armed e := by
    intro found hfound
    refine h.dispatch [] (hnodup.sublist (prepare_sublist rules s)) hinv harmed ?_ ?_
    · rcases hfound with rfl | rfl
      · exact fairDispatch_nil
      · exact hfair
    · rcases hfound with rfl | rfl
      · exact fun e he => by cases he
      · exact fun e he hhung => hhup ⟨e, he, hhung⟩
  refine ⟨fun outcome rules' s' hok => ?_, fun e herr => ?_⟩
  · rcases waitNextEvent_eq_ok hok with ⟨rfl, rfl⟩ | ⟨found, hrest, hfound⟩
    · exact hinv
    · exact (hdispatch found hfound).1 _ _ hrest
  · obtain ⟨found, hrest, hfound⟩ := waitNextEvent_eq_error herr
    exact (hdispatch found hfound).2 _ hrest

/-- **Every run** keeps the invariant, and throws what a callback throws or what `poll` has found,
if all answers are fair. -/
theorem loop {results : List (PollResult α)} (hnodup : rules.Nodup) (hI : I rules s)
    (hfair : ∀ i answer s, Fair i answer s) (hhup : ∀ result ∈ results, result.HungUp → hup) :
    (∀ done rules' s', loop table results rules s = .ok (done, rules', s') → I rules' s') ∧
      ∀ e, EventLoop.loop table results rules s = .error e →
        e = pollError ∨ Throws table I Armed e := by
  induction results generalizing rules s with
  | nil => exact ⟨fun _ _ _ hok => by cases hok; exact hI, fun e herr => by cases herr⟩
  | cons result results ih =>
    obtain ⟨hfirst, hlater⟩ := List.forall_mem_cons.mp hhup
    obtain ⟨hok', herr'⟩ := h.waitNextEvent hnodup hI (fairTurn_of_forall hfair _ _ _) hfirst
    refine ⟨fun done rules' s' hok => ?_, fun e herr => ?_⟩
    · obtain ⟨⟨outcome, rules₁, s₁⟩, hturn, hrest⟩ := bind_eq_ok_iff.mp hok
      dsimp only at hrest
      split_ifs at hrest with hexit
      · cases hrest
        exact hok' _ _ _ hturn
      · exact (ih (hnodup.sublist (waitNextEvent_sublist hturn)) (hok' _ _ _ hturn) hlater).1
          _ _ _ hrest
    · rcases bind_eq_error_iff.mp herr with hturn | ⟨⟨outcome, rules₁, s₁⟩, hturn, hrest⟩
      · exact herr' e hturn
      · dsimp only at hrest
        split_ifs at hrest with hexit
        · cases hrest
        · exact (ih (hnodup.sublist (waitNextEvent_sublist hturn)) (hok' _ _ _ hturn) hlater).2
            _ hrest

end Safe

/-! ## Busy waiting -/

/-- **A rule uses its descriptor or loses its interest**, which is what the class asks of the
callbacks. -/
def Serves (rule : Rule σ α) : Prop :=
  ∀ answer s s', rule.callback answer s = .ok s' →
    rule.serviceCount s ≠ rule.serviceCount s' ∨ rule.interest s' = false

/-- **Rules that serve their descriptors never cause a busy wait**: what is thrown, the callback has
thrown. -/
theorem callback_error_of_serves {rule : Rule σ α} (hserves : Serves rule) {answer : α}
    {e : SystemException} (h : call rule answer s = .error e) :
    rule.callback answer s = .error e := by
  rcases bind_eq_error_iff.mp h with hthrown | ⟨t, hok, hidle⟩
  · exact hthrown
  · rw [if_neg] at hidle
    · cases hidle
    · rintro ⟨hcount, hinterest⟩
      rcases hserves answer s t hok with hne | hnot
      · exact hne hcount
      · rw [hnot] at hinterest
        cases hinterest

/-! ## Exit -/

/-- What the cancelled rules keep holds after the first loop. -/
theorem prepare_keeps {P : σ → Prop} (hcancel : ∀ j ∈ rules, ∀ t, P t → P ((table j).cancel t))
    (hs : P s) : P (prepare table rules s).2 := by
  induction rules generalizing s with
  | nil => exact hs
  | cons i rules ih =>
    obtain ⟨hi, hrest⟩ := List.forall_mem_cons.mp hcancel
    unfold prepare
    split_ifs
    · exact ih hrest (hi s hs)
    · exact ih hrest (hi s hs)
    · exact ih hrest hs

/-- A rule that was found uninterested is so at the end of the first loop, if the rules after it do
not arouse its interest by being cancelled. -/
theorem prepare_uninterested
    (hstable : rules.Pairwise fun i j => ∀ t, (table i).interest t = false →
      (table i).interest ((table j).cancel t) = false) {i : ι}
    (hi : (i, false) ∈ (prepare table rules s).1) :
    (table i).interest (prepare table rules s).2 = false := by
  induction rules generalizing s with
  | nil => cases hi
  | cons j rules ih =>
    obtain ⟨hj, hrest⟩ := List.pairwise_cons.mp hstable
    unfold prepare at hi ⊢
    split_ifs at hi ⊢
    · exact ih hrest hi
    · exact ih hrest hi
    · rcases List.mem_cons.mp hi with heq | hi
      · obtain ⟨rfl, hinterest⟩ := Prod.mk.inj heq
        exact prepare_keeps (P := fun t => (table i).interest t = false) hj hinterest.symm
      · exact ih hrest hi

/-- **The loop exits when no rule is interested**, unless a signal was caught. -/
theorem uninterested_of_exit
    (hstable : rules.Pairwise fun i j => ∀ t, (table i).interest t = false →
      (table i).interest ((table j).cancel t) = false)
    {result : PollResult α} (hresult : result ≠ .interrupted)
    (h : waitNextEvent table result rules s = .ok (.exit, rules', s')) :
    ∀ i ∈ rules', (table i).interest s' = false := by
  unfold waitNextEvent at h
  dsimp only at h
  split_ifs at h with hnone
  · cases h
    intro i hi
    obtain ⟨⟨j, interested⟩, hmem, rfl⟩ := List.mem_map.mp hi
    have hany : (prepare table rules s).1.any Prod.snd = false := by simpa using hnone
    have hnot : interested = false := by simpa using List.any_eq_false.mp hany _ hmem
    rw [hnot] at hmem
    exact prepare_uninterested hstable hmem
  · cases result with
    | timeout => cases h
    | interrupted => exact absurd rfl hresult
    | failed =>
      obtain ⟨rest, -, heq⟩ := bind_eq_ok_iff.mp h
      cases heq
    | ready revents =>
      obtain ⟨rest, -, heq⟩ := bind_eq_ok_iff.mp h
      cases heq

/-- The same for a run that has come to its end. -/
theorem uninterested_of_done
    (hstable : rules.Pairwise fun i j => ∀ t, (table i).interest t = false →
      (table i).interest ((table j).cancel t) = false)
    {results : List (PollResult α)} (hresults : ∀ result ∈ results, result ≠ .interrupted)
    (h : loop table results rules s = .ok (true, rules', s')) :
    ∀ i ∈ rules', (table i).interest s' = false := by
  induction results generalizing rules s with
  | nil => cases h
  | cons result results ih =>
    obtain ⟨hfirst, hlater⟩ := List.forall_mem_cons.mp hresults
    obtain ⟨⟨outcome, rules₁, s₁⟩, hturn, hrest⟩ := bind_eq_ok_iff.mp h
    dsimp only at hrest
    split_ifs at hrest with hexit
    · cases hrest
      subst hexit
      exact uninterested_of_exit hstable hfirst hturn
    · exact ih (hstable.sublist (waitNextEvent_sublist hturn)) hlater hrest

end EventLoop

end Sponge
