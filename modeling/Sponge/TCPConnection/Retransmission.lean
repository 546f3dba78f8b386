import Mathlib.Tactic
import Sponge.TCPConnection.AckFlow
import Sponge.TCPConnection.Stamps
import Sponge.TCPSender.Timer

/-!
# Retransmissions

A connection gives its ticks to its sender and ends when the sender has retransmitted too often.
That bounds the number of expiries of the timer, so that the timeout never overflows and the sender
keeps the time that it is meant to keep. The timer that is meant is observed from outside: it is
restarted when something is sent while nothing was outstanding, when an acknowledgment removes a
segment, and when the sender retransmits.

## Main definitions

* `TCPSender.Retransmits`: a tick makes the sender send its oldest outstanding segment again
* `TimedConnection`: a connection and the timer that is observed along a run
* `TimedConnection.Timed`: the sender keeps the time of the observed timer

## Main results

* `TCPSender.Times.tick_cases`, `TCPSender.Bookkeeping.step_movesTimer`: what a tick does to the
  timer, and what any other call does
* `TimedConnection.Timed.step`: every call keeps the time
* `retransmission_timer`, `retransmission_timer_syn`: when a tick retransmits
-/

namespace Sponge

namespace TCPSender

variable {s s' s'' : TCPSender} {stale : TCPSegment} {ms rtTimeout : ℕ} {t : RetransmissionTimer}

/-! ## What a tick sends -/

/-- A tick makes the sender send its oldest outstanding segment again. -/
def Retransmits (s : TCPSender) (stale : TCPSegment) (ms : ℕ) : Prop :=
  ∃ front ∈ s.segmentsOutstanding.head?, (s.tick stale ms).segmentsOut = s.segmentsOut ++ [front]

instance (s : TCPSender) (stale : TCPSegment) (ms : ℕ) : Decidable (s.Retransmits stale ms) :=
  inferInstanceAs (Decidable (∃ front ∈ s.segmentsOutstanding.head?, _))

/-- **A tick is one of the timer**: it retransmits if something is outstanding and the timeout is
reached, and otherwise nothing is sent and time passes. -/
theorem Times.tick_cases (h : s.Times rtTimeout t) (hl : s.Ledger) (hrt : rtTimeout < 2 ^ 16)
    (hexpiries : t.expiries ≤ TCPConfig.maxRetxAttempts) (hms : ms < 2 ^ 31) (stale : TCPSegment) :
    ((s.segmentsOutstanding ≠ [] ∧ t.timeout rtTimeout ≤ t.elapsed + ms) ∧
        s.Retransmits stale ms ∧ (s.tick stale ms).Times rtTimeout (t.expire s.countsExpiry)) ∨
      (¬ (s.segmentsOutstanding ≠ [] ∧ t.timeout rtTimeout ≤ t.elapsed + ms) ∧
        ¬ s.Retransmits stale ms ∧ (s.tick stale ms).segmentsOut = s.segmentsOut ∧
        (s.tick stale ms).Times rtTimeout (t.advance ms)) := by
  have hrunning : s.timerRunning = true ↔ s.segmentsOutstanding ≠ [] := by simp [hl.timer]
  by_cases hdue : s.segmentsOutstanding ≠ [] ∧ t.timeout rtTimeout ≤ t.elapsed + ms
  · obtain ⟨front, segs, hfront⟩ := List.exists_cons_of_ne_nil hdue.1
    have hhead : s.segmentsOutstanding.head? = some front := by rw [hfront, List.head?_cons]
    obtain ⟨hout, htimes⟩ := h.tick_expired stale hrt hexpiries hms
      (hrunning.mpr hdue.1) hhead hdue.2
    exact Or.inl ⟨hdue, ⟨front, hhead, hout⟩, htimes⟩
  · obtain ⟨hout, htimes⟩ := h.tick_pending stale hrt hexpiries hms
      fun hr => Nat.lt_of_not_le fun hle => hdue ⟨hrunning.mp hr, hle⟩
    refine Or.inr ⟨hdue, ?_, hout, htimes⟩
    rintro ⟨front, -, hmore⟩
    rw [hout] at hmore
    simp at hmore

/-! ## What other calls do to the timer -/

/-- From `s` to `s'` the timer is reset if something is acknowledged, and otherwise goes on. -/
def MovesTimer (s s' : TCPSender) : Prop :=
  (s'.ackedUpTo = s.ackedUpTo ∧ KeepsTimer s s') ∨
    (s.ackedUpTo < s'.ackedUpTo ∧ ResetsTimer s s')

theorem MovesTimer.refl (s : TCPSender) : MovesTimer s s := Or.inl ⟨rfl, KeepsTimer.refl s⟩

theorem MovesTimer.trans (h : MovesTimer s s') (h' : MovesTimer s' s'') : MovesTimer s s'' := by
  rcases h with ⟨hacked, hk⟩ | ⟨hacked, hr⟩
  · rcases h' with ⟨hacked', hk'⟩ | ⟨hacked', hr'⟩
    · exact Or.inl ⟨hacked'.trans hacked, hk.trans hk'⟩
    · exact Or.inr ⟨hacked ▸ hacked', hr'.of_timeout_eq hk.timeout_eq⟩
  · rcases h' with ⟨hacked', hk'⟩ | ⟨hacked', hr'⟩
    · exact Or.inr ⟨hacked'.symm ▸ hacked, hr.trans_keeps hk'⟩
    · exact Or.inr ⟨hacked.trans hacked', hr'.of_timeout_eq hr.timeout_eq⟩

/-- What leaves the outstanding queue is acknowledged. -/
theorem Ledger.acknowledged_ackedUpTo (h : s.Ledger) (absAckno : ℕ) (windowSize : UInt16) :
    (s.acknowledged absAckno windowSize).ackedUpTo =
      s.ackedUpTo + seqLength (s.acked absAckno) := by
  obtain ⟨hlen, -, -⟩ := h.split absAckno
  have hle := h.bytesInFlight_le
  rw [acknowledged_eq]
  unfold ackedUpTo
  dsimp only
  omega

theorem Bookkeeping.acknowledged_movesTimer (h : s.Bookkeeping) (absAckno : ℕ)
    (windowSize : UInt16) : MovesTimer s (s.acknowledged absAckno windowSize) := by
  have hacked := h.acknowledged_ackedUpTo absAckno windowSize
  by_cases hnil : s.acked absAckno = []
  · rw [hnil, seqLength_nil, Nat.add_zero] at hacked
    exact Or.inl ⟨hacked, h.acknowledged_keepsTimer hnil windowSize⟩
  · -- a segment that leaves the queue occupies a sequence number
    have hpos : seqLength (s.acked absAckno) ≠ 0 :=
      fun hzero => hnil ((h.split absAckno).2.1.seqLength_eq_zero_iff.mp hzero)
    exact Or.inr ⟨by omega, acknowledged_resetsTimer hnil windowSize⟩

/-- **What a call other than a tick does to the timer.** -/
theorem Bookkeeping.step_movesTimer (h : s.Bookkeeping) {op : SenderOp}
    (hop : ∀ stale ms, op ≠ .tick stale ms) : MovesTimer s (s.step op) := by
  have hfill : ∀ {s : TCPSender}, s.Bookkeeping → MovesTimer s s.fillWindow :=
    fun hs => Or.inl ⟨hs.fillWindow_ackedUpTo, fillWindow_keepsTimer _⟩
  cases op with
  | tick stale ms => exact absurd rfl (hop stale ms)
  | fillWindow => exact hfill h
  | ackReceived stale ackno windowSize =>
    rw [TCPSender.step]
    rcases s.ackReceived_cases stale ackno windowSize with heq | ⟨-, heq⟩
    · rw [heq]
      exact MovesTimer.refl s
    · rw [heq]
      exact (h.acknowledged_movesTimer _ windowSize).trans (hfill (h.acknowledged _ windowSize))
  | _ => exact Or.inl ⟨rfl, .of_eq rfl rfl rfl rfl rfl⟩

end TCPSender

/-! ## Calls of the connection -/

/-- No ending changes the timer. -/
theorem Ending.apply_times (e : Ending) {c : TCPConnection} {rtTimeout : ℕ}
    {t : RetransmissionTimer} (h : c.sender.Times rtTimeout t) :
    (e.apply c).sender.Times rtTimeout t := by
  cases e with
  | send =>
    rw [apply, TCPConnection.sendSenderSegments_sender]
    exact ⟨h.timeout, h.rto, h.retransmissions, h.elapsed, h.pending⟩
  | giveUp stale =>
    rw [apply, TCPConnection.sendSenderSegments_sender]
    exact ⟨h.timeout, h.rto, h.retransmissions, h.elapsed, h.pending⟩
  | _ => exact ⟨h.timeout, h.rto, h.retransmissions, h.elapsed, h.pending⟩

namespace TCPConnection

variable {c : TCPConnection} {op : ConnectionOp}

/-- What a call other than a tick does to the timer is what its calls of the sender do. -/
theorem Orderly.step_movesTimer (h : c.Orderly) (hop : ∀ stale ms, op ≠ .tick stale ms) :
    TCPSender.MovesTimer c.sender (c.step op).sender := by
  rw [step_sender]
  refine h.bookkeeping.exec (I := TCPSender.MovesTimer c.sender)
    (fun s call hb hs hcall => hs.trans (hb.step_movesTimer ?_)) (.refl _)
  -- only a tick makes the sender tick
  rintro stale ms rfl
  cases c.makes_of_mem_allSenderCalls op _ hcall
  exact hop stale ms rfl

/-- An active connection gives a tick to its sender, and keeps the time of it. -/
theorem times_step_tick (hactive : c.active = true) {stale : TCPSegment} {ms rtTimeout : ℕ}
    {t : RetransmissionTimer} (h : (c.sender.tick stale ms).Times rtTimeout t) :
    (c.step (.tick stale ms)).sender.Times rtTimeout t := by
  rw [step_eq]
  refine Ending.apply_times _ ?_
  rwa [prepared_tick hactive]

end TCPConnection

/-! ## The observed timer -/

/-- A connection, and the timer that is observed along a run. -/
structure TimedConnection where
  conn : TCPConnection
  timer : RetransmissionTimer
  deriving DecidableEq, Repr

namespace TimedConnection

def new (cfg : TCPConfig) (randomIsn : WrappingInt32) : TimedConnection where
  conn := TCPConnection.new cfg randomIsn
  timer := .fresh

/-- **What a call does to the timer**, seen from outside. -/
def observe (t : TimedConnection) : ConnectionOp → RetransmissionTimer
  | .tick stale ms =>
    -- an inactive connection drops its ticks
    if t.conn.active then
      if t.conn.sender.Retransmits stale ms then t.timer.expire t.conn.sender.countsExpiry
      else t.timer.advance ms
    else t.timer
  | op =>
    -- an acknowledgment has removed a segment
    if t.conn.sender.ackedUpTo < (t.conn.step op).sender.ackedUpTo then .fresh
    -- the first send while nothing was outstanding
    else if t.conn.sender.segmentsOutstanding = [] ∧
        (t.conn.step op).sender.segmentsOutstanding ≠ [] then
      t.timer.restart
    else t.timer

def step (t : TimedConnection) (op : ConnectionOp) : TimedConnection where
  conn := t.conn.step op
  timer := t.observe op

theorem exec_conn (t : TimedConnection) (ops : List ConnectionOp) :
    (Run.exec step t ops).conn = Run.exec TCPConnection.step t.conn ops :=
  Run.exec_map step (fun _ _ => rfl) t ops

theorem observe_tick (t : TimedConnection) (hactive : t.conn.active = true) (stale : TCPSegment)
    (ms : ℕ) :
    t.observe (.tick stale ms) =
      if t.conn.sender.Retransmits stale ms then t.timer.expire t.conn.sender.countsExpiry
      else t.timer.advance ms :=
  if_pos hactive

/-- What a call other than a tick does to the timer. -/
theorem observe_of_ne_tick (t : TimedConnection) {op : ConnectionOp}
    (hop : ∀ stale ms, op ≠ .tick stale ms) :
    t.observe op =
      if t.conn.sender.ackedUpTo < (t.conn.step op).sender.ackedUpTo then .fresh
      else if t.conn.sender.segmentsOutstanding = [] ∧
          (t.conn.step op).sender.segmentsOutstanding ≠ [] then
        t.timer.restart
      else t.timer := by
  cases op with
  | tick stale ms => exact absurd rfl (hop stale ms)
  | _ => rfl

variable {t : TimedConnection} {cfg : TCPConfig} {op : ConnectionOp}

/-- **The sender keeps the time of the observed timer**, and the number of expiries is small. -/
structure Timed (cfg : TCPConfig) (t : TimedConnection) : Prop where
  orderly : t.conn.Orderly
  times : t.conn.sender.Times cfg.rtTimeout.toNat t.timer
  expiries_le : t.timer.expiries ≤ TCPConfig.maxRetxAttempts + 1

theorem timed_new (cfg : TCPConfig) (randomIsn : WrappingInt32) :
    (new cfg randomIsn).Timed cfg where
  orderly := TCPConnection.orderly_new cfg randomIsn
  times := TCPSender.times_new _ _ _
  expiries_le := Nat.zero_le _

/-- The number of expiries of an active connection is within the limit. -/
theorem Timed.expiries_le_of_active (h : t.Timed cfg) (hactive : t.conn.active = true) :
    t.timer.expiries ≤ TCPConfig.maxRetxAttempts :=
  h.times.retransmissions ▸ h.orderly.retx hactive

/-- **What a tick of an active connection does.** -/
theorem Timed.tick_cases (h : t.Timed cfg) (hactive : t.conn.active = true) {ms : ℕ}
    (hms : ms < 2 ^ 31) (stale : TCPSegment) :
    ((t.conn.sender.segmentsOutstanding ≠ [] ∧
          t.timer.timeout cfg.rtTimeout.toNat ≤ t.timer.elapsed + ms) ∧
        t.conn.sender.Retransmits stale ms ∧
        (t.conn.sender.tick stale ms).Times cfg.rtTimeout.toNat
          (t.timer.expire t.conn.sender.countsExpiry)) ∨
      (¬ (t.conn.sender.segmentsOutstanding ≠ [] ∧
          t.timer.timeout cfg.rtTimeout.toNat ≤ t.timer.elapsed + ms) ∧
        ¬ t.conn.sender.Retransmits stale ms ∧
        (t.conn.sender.tick stale ms).segmentsOut = t.conn.sender.segmentsOut ∧
        (t.conn.sender.tick stale ms).Times cfg.rtTimeout.toNat (t.timer.advance ms)) :=
  h.times.tick_cases h.orderly.bookkeeping.toLedger cfg.rtTimeout.toNat_lt
    (h.expiries_le_of_active hactive) hms stale

/-- A tick keeps the time. -/
theorem Timed.tick (h : t.Timed cfg) {ms : ℕ} (hms : ms < 2 ^ 31) (stale : TCPSegment) :
    (t.step (.tick stale ms)).Timed cfg := by
  cases hactive : t.conn.active with
  | false =>
    have hconn : t.conn.step (.tick stale ms) = t.conn := by
      simp [TCPConnection.step, TCPConnection.tick, hactive]
    have htimer : t.observe (.tick stale ms) = t.timer := by simp [observe, hactive]
    rw [TimedConnection.step, hconn, htimer]
    exact h
  | true =>
    have hle := h.expiries_le_of_active hactive
    refine ⟨h.orderly.step (.tick stale ms), ?_, ?_⟩
    · change (t.conn.step (.tick stale ms)).sender.Times _ (t.observe (.tick stale ms))
      rw [t.observe_tick hactive]
      rcases h.tick_cases hactive hms stale with ⟨-, hretx, htimes⟩ | ⟨-, hretx, -, htimes⟩
      · rw [if_pos hretx]
        exact TCPConnection.times_step_tick hactive htimes
      · rw [if_neg hretx]
        exact TCPConnection.times_step_tick hactive htimes
    · -- the limit has not been exceeded yet, so one more expiry is allowed for
      change (t.observe (.tick stale ms)).expiries ≤ _
      rw [t.observe_tick hactive]
      unfold RetransmissionTimer.expire RetransmissionTimer.advance
      split_ifs <;> dsimp only <;> omega

/-- **Every call keeps the time.** -/
theorem Timed.step (h : t.Timed cfg) (op : ConnectionOp)
    (hop : ∀ stale ms, op = .tick stale ms → ms < 2 ^ 31) : (t.step op).Timed cfg := by
  by_cases htick : ∃ stale ms, op = .tick stale ms
  · obtain ⟨stale, ms, rfl⟩ := htick
    exact h.tick (hop stale ms rfl) stale
  · have hne : ∀ stale ms, op ≠ .tick stale ms := fun stale ms heq => htick ⟨stale, ms, heq⟩
    have horderly := h.orderly.step op
    -- the timer runs while something is outstanding
    have hstarts : (t.conn.sender.timerRunning = false ∧
        (t.conn.step op).sender.timerRunning = true) ↔
          (t.conn.sender.segmentsOutstanding = [] ∧
            (t.conn.step op).sender.segmentsOutstanding ≠ []) := by
      rw [h.orderly.bookkeeping.timer, horderly.bookkeeping.timer]
      simp
    refine ⟨horderly, ?_, ?_⟩
    · change (t.conn.step op).sender.Times _ (t.observe op)
      rw [t.observe_of_ne_tick hne]
      rcases h.orderly.step_movesTimer hne with ⟨hacked, hk⟩ | ⟨hacked, hr⟩
      · -- nothing is acknowledged, but the timer may start
        rw [if_neg (by omega)]
        simpa only [hstarts] using h.times.keeps hk
      · rw [if_pos hacked]
        exact h.times.resets hr
    · change (t.observe op).expiries ≤ _
      rw [t.observe_of_ne_tick hne]
      split_ifs
      · exact Nat.zero_le _
      · exact h.expiries_le
      · exact h.expiries_le

end TimedConnection

/-- **The retransmission timer.** Along every run, the number of consecutive retransmissions is that
of the expiries of the observed timer and the timeout is the first one doubled as often, within 32
bits. A tick of an active connection makes its sender retransmit the oldest outstanding segment
exactly when something is outstanding and the timeout is reached, and otherwise send nothing. -/
theorem retransmission_timer (cfg : TCPConfig) (randomIsn : WrappingInt32)
    (ops : List ConnectionOp) (hops : ∀ stale ms, .tick stale ms ∈ ops → ms < 2 ^ 31) :
    let t := Run.exec TimedConnection.step (TimedConnection.new cfg randomIsn) ops
    let k := t.conn.sender.consecutiveRetransmissions.toNat
    t.conn = Run.exec TCPConnection.step (TCPConnection.new cfg randomIsn) ops ∧
      k = t.timer.expiries ∧ k ≤ TCPConfig.maxRetxAttempts + 1 ∧
      t.conn.sender.rto.toNat = cfg.rtTimeout.toNat * 2 ^ k ∧
      cfg.rtTimeout.toNat * 2 ^ k < 2 ^ 32 ∧
      (t.conn.active = true → ∀ stale ms, ms < 2 ^ 31 →
        (t.conn.sender.Retransmits stale ms ↔ t.conn.sender.segmentsOutstanding ≠ [] ∧
          cfg.rtTimeout.toNat * 2 ^ k ≤ t.timer.elapsed + ms) ∧
        (¬ t.conn.sender.Retransmits stale ms →
          (t.conn.sender.tick stale ms).segmentsOut = t.conn.sender.segmentsOut)) := by
  intro t k
  have h : t.Timed cfg := by
    refine Run.invariant (P := fun _ op => ∀ stale ms, op = .tick stale ms → ms < 2 ^ 31)
      (fun t op ht hop => ht.step op hop) (TimedConnection.timed_new cfg randomIsn)
      (Run.always_of_forall ?_)
    rintro op hop stale ms rfl
    exact hops stale ms hop
  have hk : k = t.timer.expiries := h.times.retransmissions
  have hlt := t.timer.timeout_lt cfg.rtTimeout.toNat_lt h.expiries_le
  refine ⟨TimedConnection.exec_conn _ ops, hk, hk ▸ h.expiries_le, ?_, ?_, ?_⟩
  · rw [hk]
    exact h.times.rto
  · rw [hk]
    exact hlt.trans (by decide)
  · intro hactive stale ms hms
    rw [hk]
    rcases h.tick_cases hactive hms stale with ⟨hdue, hretx, -⟩ | ⟨hdue, hretx, hout, -⟩
    · exact ⟨iff_of_true hretx hdue, fun hc => absurd hretx hc⟩
    · exact ⟨iff_of_false hretx hdue, fun _ => hout⟩

/-- The SYN is sent again after a second. -/
theorem retransmission_timer_syn :
    let ops : List ConnectionOp := [.connect, .tick {} 600]
    let t := Run.exec TimedConnection.step (TimedConnection.new {} ⟨0⟩) ops
    (∀ stale ms, .tick stale ms ∈ ops → ms < 2 ^ 31) ∧ t.conn.active = true ∧
      t.conn.sender.Retransmits {} 400 ∧ ¬ t.conn.sender.Retransmits {} 399 := by
  intro ops t
  have hops : ∀ stale ms, .tick stale ms ∈ ops → ms < 2 ^ 31 := by simp [ops]
  have h := retransmission_timer {} ⟨0⟩ ops hops
  have hactive : t.conn.active = true := by decide
  have hdue := h.2.2.2.2.2 hactive {}
  refine ⟨hops, hactive, (hdue 400 (by norm_num)).1.mpr (by decide), fun hretx => ?_⟩
  exact absurd ((hdue 399 (by norm_num)).1.mp hretx) (by decide)

end Sponge
