import Mathlib.Tactic
import Sponge.TCPSender.Bookkeeping

/-!
# The retransmission timer

The timer of the sender is spread over four variables: whether it runs, the time it has run, the
timeout, which doubles, and the number of retransmissions. `RetransmissionTimer` is what they are
for: the time since the timer was last restarted and the number of its expiries, without any width.
`Times` says that the variables of the sender are those of such a timer. A tick that is not too long
keeps it while the number of expiries is small; sending restarts only a timer that is not running,
and an acknowledgment that removes a segment restarts the timer with its first timeout.

## Main definitions

* `RetransmissionTimer`, `TCPSender.Times`: the timer, and its representation in the sender
* `TCPSender.KeepsTimer`, `TCPSender.ResetsTimer`: what a call other than a tick does to the timer

## Main results

* `TCPSender.tick_of_expired`, `TCPSender.tick_of_pending`, `TCPSender.tick_of_stopped`: what a tick
  does
* `TCPSender.Times.tick_expired`, `TCPSender.Times.tick_pending`: a tick is one of the timer
* `TCPSender.fillWindow_keepsTimer`, `TCPSender.Ledger.acknowledged_keepsTimer`,
  `TCPSender.acknowledged_resetsTimer`: what sending and acknowledgments do to the timer
-/

namespace Sponge

/-- The retransmission timer as it is meant. -/
structure RetransmissionTimer where
  /-- the time since the timer was last restarted -/
  elapsed : ℕ
  /-- the expiries that count, since an acknowledgment last removed a segment -/
  expiries : ℕ
  deriving DecidableEq, Repr

namespace RetransmissionTimer

/-- The timeout doubles with each expiry that counts. -/
def timeout (t : RetransmissionTimer) (rtTimeout : ℕ) : ℕ := rtTimeout * 2 ^ t.expiries

/-- The timer is restarted after an acknowledgment that removes a segment. -/
def fresh : RetransmissionTimer := ⟨0, 0⟩

/-- The timer is restarted, and nothing is acknowledged. -/
def restart (t : RetransmissionTimer) : RetransmissionTimer := { t with elapsed := 0 }

/-- Time passes. -/
def advance (t : RetransmissionTimer) (ms : ℕ) : RetransmissionTimer :=
  { t with elapsed := t.elapsed + ms }

/-- The timer expires and is restarted. -/
def expire (t : RetransmissionTimer) (counts : Bool) : RetransmissionTimer where
  elapsed := 0
  expiries := if counts then t.expiries + 1 else t.expiries

/-- A timeout of 16 bits that has doubled a few times. -/
theorem timeout_lt (t : RetransmissionTimer) {rtTimeout n : ℕ} (hrt : rtTimeout < 2 ^ 16)
    (hn : t.expiries ≤ n) : t.timeout rtTimeout < 2 ^ (16 + n) := by
  rw [timeout, pow_add]
  exact Nat.mul_lt_mul_of_lt_of_le hrt (Nat.pow_le_pow_right two_pos hn) (Nat.two_pow_pos n)

end RetransmissionTimer

namespace TCPSender

variable {s s' s'' : TCPSender} {stale : TCPSegment} {ms : ℕ}

/-! ## What a tick does -/

/-- An expiry of the timer counts: the window is open, or the oldest segment is the SYN. -/
def countsExpiry (s : TCPSender) : Bool := s.receiverWindowSize != 0 || s.synOutstanding

theorem countsExpiry_iff :
    s.countsExpiry = true ↔ s.receiverWindowSize ≠ 0 ∨ s.synOutstanding = true := by
  simp [countsExpiry]

theorem tick_of_stopped (h : s.timerRunning = false) : s.tick stale ms = s := by
  rw [tick, h]
  rfl

theorem tick_of_pending (hrunning : s.timerRunning = true)
    (h : ¬ s.rto ≤ s.timeElapsed + UInt32.ofNat ms) :
    s.tick stale ms = { s with timeElapsed := s.timeElapsed + UInt32.ofNat ms } := by
  rw [tick, hrunning]
  exact if_neg h

theorem tick_of_expired {front : TCPSegment} (hrunning : s.timerRunning = true)
    (hfront : s.segmentsOutstanding.head? = some front)
    (h : s.rto ≤ s.timeElapsed + UInt32.ofNat ms) :
    s.tick stale ms =
      { s with
        segmentsOut := s.segmentsOut ++ [front]
        consecutiveRetransmissions :=
          if s.countsExpiry then s.consecutiveRetransmissions + 1
          else s.consecutiveRetransmissions
        rto := if s.countsExpiry then s.rto <<< 1 else s.rto
        timeElapsed := 0 } := by
  have hhead : s.segmentsOutstanding.headD stale = front := by
    rw [List.headD_eq_head?_getD, hfront, Option.getD_some]
  have hcounts : s.countsExpiry = true ↔ s.receiverWindowSize ≠ 0 ∨ front.header.syn = true := by
    simp [countsExpiry, synOutstanding, hfront]
  unfold tick
  rw [if_neg (by simp [hrunning])]
  dsimp only
  rw [if_pos h, hhead]
  by_cases hc : s.countsExpiry = true
  · rw [if_pos (hcounts.mp hc), if_pos hc, if_pos hc]
  · rw [if_neg (fun hf => hc (hcounts.mpr hf)), if_neg hc, if_neg hc]

/-! ## What other calls do to the timer -/

/-- From `s` to `s'` the timer goes on, and one that is not running is restarted if it starts. -/
structure KeepsTimer (s s' : TCPSender) : Prop where
  timeout_eq : s'.initialRetransmissionTimeout = s.initialRetransmissionTimeout
  rto_eq : s'.rto = s.rto
  retransmissions_eq : s'.consecutiveRetransmissions = s.consecutiveRetransmissions
  running : s.timerRunning = true → s'.timerRunning = true ∧ s'.timeElapsed = s.timeElapsed
  started : s.timerRunning = false → s'.timerRunning = true → s'.timeElapsed = 0

/-- From `s` to `s'` the timer goes back to its first timeout, and is restarted if it runs. -/
structure ResetsTimer (s s' : TCPSender) : Prop where
  timeout_eq : s'.initialRetransmissionTimeout = s.initialRetransmissionTimeout
  rto_eq : s'.rto = s.initialRetransmissionTimeout
  retransmissions_eq : s'.consecutiveRetransmissions = 0
  elapsed : s'.timerRunning = true → s'.timeElapsed = 0

/-- A call that leaves the variables of the timer alone. -/
theorem KeepsTimer.of_eq (htimeout : s'.initialRetransmissionTimeout =
      s.initialRetransmissionTimeout) (hrto : s'.rto = s.rto)
    (hretx : s'.consecutiveRetransmissions = s.consecutiveRetransmissions)
    (hrunning : s'.timerRunning = s.timerRunning) (helapsed : s'.timeElapsed = s.timeElapsed) :
    KeepsTimer s s' := by
  refine ⟨htimeout, hrto, hretx, fun h => ⟨hrunning.trans h, helapsed⟩, fun h h' => ?_⟩
  rw [hrunning, h] at h'
  cases h'

theorem KeepsTimer.refl (s : TCPSender) : KeepsTimer s s := .of_eq rfl rfl rfl rfl rfl

theorem KeepsTimer.trans (h : KeepsTimer s s') (h' : KeepsTimer s' s'') : KeepsTimer s s'' where
  timeout_eq := h'.timeout_eq.trans h.timeout_eq
  rto_eq := h'.rto_eq.trans h.rto_eq
  retransmissions_eq := h'.retransmissions_eq.trans h.retransmissions_eq
  running := by
    intro hs
    obtain ⟨hs', helapsed⟩ := h.running hs
    obtain ⟨hs'', helapsed'⟩ := h'.running hs'
    exact ⟨hs'', helapsed'.trans helapsed⟩
  started := by
    intro hs hs''
    -- the timer starts in the first part or in the second
    cases hs' : s'.timerRunning with
    | false => exact h'.started hs' hs''
    | true => exact (h'.running hs').2.trans (h.started hs hs')

theorem ResetsTimer.trans_keeps (h : ResetsTimer s s') (h' : KeepsTimer s' s'') :
    ResetsTimer s s'' where
  timeout_eq := h'.timeout_eq.trans h.timeout_eq
  rto_eq := h'.rto_eq.trans h.rto_eq
  retransmissions_eq := h'.retransmissions_eq.trans h.retransmissions_eq
  elapsed := by
    intro hs''
    cases hs' : s'.timerRunning with
    | false => exact h'.started hs' hs''
    | true => exact (h'.running hs').2.trans (h.elapsed hs')

/-- Whatever happened to the timer before it is reset is forgotten. -/
theorem ResetsTimer.of_timeout_eq (h : ResetsTimer s' s'')
    (htimeout : s'.initialRetransmissionTimeout = s.initialRetransmissionTimeout) :
    ResetsTimer s s'' :=
  ⟨h.timeout_eq.trans htimeout, h.rto_eq.trans htimeout, h.retransmissions_eq, h.elapsed⟩

/-! ### Sending -/

/-- A segment is sent, with or without a note that it has SYN or FIN and after a read of the
stream. -/
theorem sendSegment_keepsTimer (s : TCPSender) (stream : ByteStream) (synSent finSent : Bool)
    (seg : TCPSegment) :
    KeepsTimer s
      ({ s with stream := stream, synSent := synSent, finSent := finSent }.sendSegment seg) where
  timeout_eq := rfl
  rto_eq := rfl
  retransmissions_eq := rfl
  running := fun h => ⟨rfl, if_pos h⟩
  started := fun h _ => if_neg (by simp [h])

theorem fillRound_keepsTimer (s : TCPSender) : KeepsTimer s s.fillRound :=
  s.sendSegment_keepsTimer _ _ _ _

theorem fillLoop_keepsTimer (n : ℕ) (s : TCPSender) : KeepsTimer s (s.fillLoop n) := by
  induction n generalizing s with
  | zero => exact KeepsTimer.refl s
  | succ n ih =>
    unfold fillLoop
    dsimp only
    split_ifs
    · exact s.fillRound_keepsTimer
    · exact s.fillRound_keepsTimer.trans (ih _)
    · exact KeepsTimer.refl s

theorem probe_keepsTimer (s : TCPSender) : KeepsTimer s s.probe := by
  unfold probe
  split_ifs
  · exact s.sendSegment_keepsTimer _ _ _ _
  · exact s.sendSegment_keepsTimer _ _ _ _
  · exact KeepsTimer.refl s

/-- **Sending restarts only a timer that is not running.** -/
theorem fillWindow_keepsTimer (s : TCPSender) : KeepsTimer s s.fillWindow := by
  unfold fillWindow
  split_ifs
  · exact s.sendSegment_keepsTimer _ _ _ _
  · exact KeepsTimer.refl s
  · exact KeepsTimer.refl s
  · exact KeepsTimer.refl s
  · exact s.fillLoop_keepsTimer _
  · exact s.probe_keepsTimer
  · exact KeepsTimer.refl s

/-! ### Acknowledgments -/

/-- An acknowledgment that removes nothing leaves the timer alone. -/
theorem Ledger.acknowledged_keepsTimer (h : s.Ledger) {absAckno : ℕ} (hnil : s.acked absAckno = [])
    (windowSize : UInt16) : KeepsTimer s (s.acknowledged absAckno windowSize) := by
  rw [acknowledged_eq, hnil]
  refine .of_eq rfl rfl rfl ?_ rfl
  -- while the timer runs, something is in flight
  change (s.timerRunning && s.bytesInFlight - 0 != 0) = s.timerRunning
  cases hrunning : s.timerRunning with
  | false => rfl
  | true =>
    have hbif : s.bytesInFlight ≠ 0 :=
      fun hzero => h.outstanding_ne_nil hrunning (h.bytesInFlight_eq_zero_iff.mp hzero)
    simpa using hbif

/-- An acknowledgment that removes a segment resets the timer. -/
theorem acknowledged_resetsTimer {absAckno : ℕ} (hne : s.acked absAckno ≠ [])
    (windowSize : UInt16) : ResetsTimer s (s.acknowledged absAckno windowSize) := by
  have hempty : ¬ (s.acked absAckno).isEmpty = true := by simpa using hne
  rw [acknowledged_eq, if_neg hempty, if_neg hempty, if_neg hempty]
  exact ⟨rfl, rfl, rfl, fun _ => rfl⟩

/-! ## The representation of the timer -/

/-- **The variables of the sender are those of the timer** `t` with first timeout `rtTimeout`. The
time of a timer that is not running does not matter. -/
structure Times (s : TCPSender) (rtTimeout : ℕ) (t : RetransmissionTimer) : Prop where
  timeout : s.initialRetransmissionTimeout.toNat = rtTimeout
  rto : s.rto.toNat = t.timeout rtTimeout
  retransmissions : s.consecutiveRetransmissions.toNat = t.expiries
  elapsed : s.timerRunning = true → s.timeElapsed.toNat = t.elapsed
  pending : s.timerRunning = true → t.elapsed = 0 ∨ t.elapsed < t.timeout rtTimeout

variable {rtTimeout : ℕ} {t : RetransmissionTimer}

theorem times_new (capacity : ℕ) (retxTimeout : UInt16) (isn : WrappingInt32) :
    (new capacity retxTimeout isn).Times retxTimeout.toNat .fresh where
  timeout := by simp [new]
  rto := by simp [new, RetransmissionTimer.timeout, RetransmissionTimer.fresh]
  retransmissions := rfl
  elapsed := fun h => by cases h
  pending := fun h => by cases h

/-- **A timer that goes on** is restarted if it starts to run. -/
theorem Times.keeps (h : s.Times rtTimeout t) (hk : KeepsTimer s s') :
    s'.Times rtTimeout
      (if s.timerRunning = false ∧ s'.timerRunning = true then t.restart else t) := by
  have htimeout : s'.initialRetransmissionTimeout.toNat = rtTimeout := by
    rw [hk.timeout_eq, h.timeout]
  have hrto : s'.rto.toNat = t.timeout rtTimeout := by rw [hk.rto_eq, h.rto]
  have hretx : s'.consecutiveRetransmissions.toNat = t.expiries := by
    rw [hk.retransmissions_eq, h.retransmissions]
  split_ifs with hstarts
  · refine ⟨htimeout, hrto, hretx, fun hrunning => ?_, fun _ => Or.inl rfl⟩
    rw [hk.started hstarts.1 hrunning]
    rfl
  · -- if the timer runs now, it ran before
    have hbefore : s'.timerRunning = true → s.timerRunning = true := by
      intro hrunning
      by_contra hf
      exact hstarts ⟨by simpa using hf, hrunning⟩
    refine ⟨htimeout, hrto, hretx, fun hrunning => ?_, fun hrunning => ?_⟩
    · rw [(hk.running (hbefore hrunning)).2, h.elapsed (hbefore hrunning)]
    · exact h.pending (hbefore hrunning)

theorem Times.resets (h : s.Times rtTimeout t) (hr : ResetsTimer s s') :
    s'.Times rtTimeout .fresh where
  timeout := by rw [hr.timeout_eq, h.timeout]
  rto := by
    rw [hr.rto_eq, h.timeout, RetransmissionTimer.timeout]
    exact (Nat.mul_one _).symm
  retransmissions := by
    rw [hr.retransmissions_eq]
    rfl
  elapsed := by
    intro hrunning
    rw [hr.elapsed hrunning]
    rfl
  pending := fun _ => Or.inl rfl

section Tick

variable (h : s.Times rtTimeout t) (hrt : rtTimeout < 2 ^ 16)
  (hexpiries : t.expiries ≤ TCPConfig.maxRetxAttempts) (hms : ms < 2 ^ 31)

include h hrt hexpiries hms

/-- A tick does not overflow the time, so the test of the source is that of the timer. -/
theorem Times.expired_iff (hrunning : s.timerRunning = true) :
    s.rto ≤ s.timeElapsed + UInt32.ofNat ms ↔ t.timeout rtTimeout ≤ t.elapsed + ms := by
  have hlt := t.timeout_lt hrt hexpiries
  unfold TCPConfig.maxRetxAttempts at hlt
  have hpending := h.pending hrunning
  -- the time is below the timeout, and that is below `2 ^ 24`
  rw [UInt32.le_iff_toNat_le, UInt32.toNat_add, UInt32.toNat_ofNat', h.rto, h.elapsed hrunning,
    Nat.mod_eq_of_lt (by omega : ms < 2 ^ 32), Nat.mod_eq_of_lt (by omega)]

variable (stale)

/-- **A tick before the timeout** is time that passes. -/
theorem Times.tick_pending (hpending : s.timerRunning = true →
    t.elapsed + ms < t.timeout rtTimeout) :
    (s.tick stale ms).segmentsOut = s.segmentsOut ∧
      (s.tick stale ms).Times rtTimeout (t.advance ms) := by
  cases hrunning : s.timerRunning with
  | false =>
    -- the time of a timer that is not running is not represented
    have hstopped : ¬ s.timerRunning = true := by simp [hrunning]
    rw [tick_of_stopped hrunning]
    exact ⟨rfl, h.timeout, h.rto, h.retransmissions, fun hr => absurd hr hstopped,
      fun hr => absurd hr hstopped⟩
  | true =>
    have hlt := t.timeout_lt hrt hexpiries
    unfold TCPConfig.maxRetxAttempts at hlt
    have hexpired := (h.expired_iff hrt hexpiries hms hrunning).not.mpr
      (Nat.not_le.mpr (hpending hrunning))
    have helapsed : (s.timeElapsed + UInt32.ofNat ms).toNat = t.elapsed + ms := by
      have := hpending hrunning
      rw [UInt32.toNat_add, UInt32.toNat_ofNat', h.elapsed hrunning,
        Nat.mod_eq_of_lt (by omega : ms < 2 ^ 32), Nat.mod_eq_of_lt (by omega)]
    rw [tick_of_pending hrunning hexpired]
    exact ⟨rfl, h.timeout, h.rto, h.retransmissions, fun _ => helapsed,
      fun _ => Or.inr (hpending hrunning)⟩

/-- **A tick that reaches the timeout** sends the oldest outstanding segment again and restarts the
timer, with twice the timeout if the expiry counts. -/
theorem Times.tick_expired {front : TCPSegment} (hrunning : s.timerRunning = true)
    (hfront : s.segmentsOutstanding.head? = some front)
    (hexpired : t.timeout rtTimeout ≤ t.elapsed + ms) :
    (s.tick stale ms).segmentsOut = s.segmentsOut ++ [front] ∧
      (s.tick stale ms).Times rtTimeout (t.expire s.countsExpiry) := by
  have hlt := t.timeout_lt hrt hexpiries
  unfold TCPConfig.maxRetxAttempts at hexpiries hlt
  -- neither the timeout nor the number of retransmissions overflows
  have hdouble : (s.rto <<< 1).toNat = t.timeout rtTimeout * 2 := by
    have hone : (1 : UInt32).toNat % 32 = 1 := rfl
    rw [UInt32.toNat_shiftLeft, h.rto, hone, Nat.shiftLeft_eq, pow_one, Nat.mod_eq_of_lt]
    omega
  have hnext : (s.consecutiveRetransmissions + 1).toNat = t.expiries + 1 := by
    rw [UInt16.toNat_add, UInt16.toNat_one, h.retransmissions, Nat.mod_eq_of_lt (by omega)]
  rw [tick_of_expired hrunning hfront ((h.expired_iff hrt hexpiries hms hrunning).mpr hexpired)]
  cases s.countsExpiry with
  | false => exact ⟨rfl, h.timeout, h.rto, h.retransmissions, fun _ => rfl, fun _ => Or.inl rfl⟩
  | true =>
    refine ⟨rfl, h.timeout, ?_, hnext, fun _ => rfl, fun _ => Or.inl rfl⟩
    change (s.rto <<< 1).toNat = rtTimeout * 2 ^ (t.expiries + 1)
    rw [hdouble, pow_succ, RetransmissionTimer.timeout, Nat.mul_assoc]

end Tick

end TCPSender

end Sponge
