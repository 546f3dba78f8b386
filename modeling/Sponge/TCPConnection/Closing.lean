import Mathlib.Tactic
import Sponge.TCPConnection.Silence
import Sponge.TCPConnection.Transmission

/-!
# How a connection ends cleanly

`clean_shutdown` ends a connection when both streams are done and nothing is in flight; it does not
look at the FIN or at the acknowledgments, and it decides from the state of the moment whether the
endpoint lingers. Here its decisions are followed over whole runs against an arbitrary peer: what an
endpoint has sent and heard when it ends without an error, and that the side that finishes first
waits.

## Main definitions

* `ConnectionTrace`, `ConnectionTrace.step`: a connection in use, with the history of its sender and
  the time since the last segment
* `ConnectionTrace.WritesOpen`: nothing is written after `end_input_stream`
* `ConnectionTrace.Follows`: the invariant of these runs

## Main results

* `TCPConnection.step_closes`: how a connection becomes inactive without an error
* `TCPConnection.step_linger`: when it keeps its intention to linger
* `clean_close_conclusive`: both directions are complete
* `time_wait_honoured`: the side that finished first waits
-/

namespace Sponge

namespace TCPConnection

variable {c : TCPConnection} {op : ConnectionOp}

/-! ## The decisions of `clean_shutdown` -/

/-- Sending stops the intention to linger if the peer has finished first. -/
theorem sendSenderSegments_linger_eq (c : TCPConnection) :
    c.sendSenderSegments.lingerAfterStreamsFinish =
      (c.lingerAfterStreamsFinish &&
        !(c.receiver.streamOut.inputEnded && !c.sender.stream.eof)) := by
  rw [sendSenderSegments, drain_eq _ rfl, cleanShutdown]
  dsimp only
  split_ifs with hended heof <;> simp_all

/-- Sending ends the connection if both streams are done, all is acknowledged, and it need not
linger any more. -/
theorem sendSenderSegments_active_eq (c : TCPConnection) :
    c.sendSenderSegments.active =
      (c.active && !(c.receiver.streamOut.inputEnded && c.sender.stream.eof &&
        c.sender.bytesInFlight == 0 && (!c.lingerAfterStreamsFinish ||
          decide (10 * c.cfg.rtTimeout.toNat ≤ c.timeSinceLastSegmentReceived)))) := by
  rw [sendSenderSegments, drain_eq _ rfl, cleanShutdown]
  dsimp only
  split_ifs with hended heof hbif hlinger
  · simp_all
  · rw [hlinger]
    simp_all
  all_goals simp_all

/-- A connection that becomes inactive by sending has both streams done and all acknowledged, and
does not linger or has lingered. -/
theorem sendSenderSegments_closes (hactive : c.active = true)
    (hclosed : c.sendSenderSegments.active = false) :
    c.receiver.streamOut.inputEnded = true ∧ c.sender.stream.eof = true ∧
      c.sender.bytesInFlight = 0 ∧ (c.lingerAfterStreamsFinish = false ∨
        10 * c.cfg.rtTimeout.toNat ≤ c.timeSinceLastSegmentReceived) := by
  rw [sendSenderSegments_active_eq, hactive, Bool.true_and, Bool.not_eq_false'] at hclosed
  simp only [Bool.and_eq_true, Bool.or_eq_true, Bool.not_eq_true', beq_iff_eq,
    decide_eq_true_eq] at hclosed
  obtain ⟨⟨⟨hended, heof⟩, hbif⟩, hlinger⟩ := hclosed
  exact ⟨hended, heof, hbif, hlinger⟩

/-- **How a connection becomes inactive without an error.** -/
theorem step_closes (hactive : c.active = true) (hclosed : (c.step op).active = false)
    (herr : ¬ (c.step op).Erred) :
    c.ending op = .send ∧ (c.received op).streamOut.inputEnded = true ∧
      (c.prepared op).sender.stream.eof = true ∧ (c.prepared op).sender.bytesInFlight = 0 ∧
      (c.lingerAfterStreamsFinish = false ∨ 10 * c.cfg.rtTimeout.toNat ≤ c.clock op) := by
  rw [step_eq] at hclosed herr
  -- the endings other than sending leave the connection active, or set an error
  cases hending : c.ending op with
  | rest =>
    rw [hending] at hclosed
    rw [show c.active = false from hclosed] at hactive
    cases hactive
  | send =>
    rw [hending] at hclosed
    exact ⟨rfl, sendSenderSegments_closes (c := c.prepared op) hactive hclosed⟩
  | reset stale =>
    rw [hending] at herr
    exact absurd (Or.inl rfl) herr
  | giveUp stale =>
    rw [hending] at herr
    refine absurd (Or.inl ?_) herr
    rw [Ending.apply_receiver]
    rfl
  | refuse =>
    rw [hending] at herr
    exact absurd (Or.inl rfl) herr

/-- Sending does not change the intention to linger while the inbound stream is open, or once the
outbound one is at its end. -/
theorem sendSenderSegments_linger
    (h : c.receiver.streamOut.inputEnded = false ∨ c.sender.stream.eof = true) :
    c.sendSenderSegments.lingerAfterStreamsFinish = c.lingerAfterStreamsFinish := by
  rw [sendSenderSegments_linger_eq]
  rcases h with hopen | hdone
  · rw [hopen, Bool.false_and, Bool.not_false, Bool.and_true]
  · rw [hdone, Bool.not_true, Bool.and_false, Bool.not_false, Bool.and_true]

/-- **When a call keeps the intention to linger.** -/
theorem step_linger (h : (c.received op).streamOut.inputEnded = false ∨
      (c.prepared op).sender.stream.eof = true) :
    (c.step op).lingerAfterStreamsFinish = c.lingerAfterStreamsFinish := by
  rw [step_eq]
  cases c.ending op with
  | send => exact sendSenderSegments_linger (c := c.prepared op) h
  | giveUp stale =>
    -- an error does not end a stream, nor open it again
    exact sendSenderSegments_linger (c := (c.prepared op).uncleanShutdown stale) h
  | _ => rfl

theorem received_inputEnded (h : c.receiver.streamOut.inputEnded = true) :
    (c.received op).streamOut.inputEnded = true := by
  cases op with
  | segmentReceived stale seg =>
    simp only [received]
    cases c.path seg with
    | answered => exact TCPReceiver.segmentReceived_inputEnded h
    | simultaneous => exact TCPReceiver.segmentReceived_inputEnded h
    | exchanged => exact TCPReceiver.segmentReceived_inputEnded h
    | _ => exact h
  | _ => exact h

end TCPConnection

/-! ## The end of the outbound stream -/

namespace TCPSender

variable {s : TCPSender}

/-- `fill_window` leaves a stream at its end there. -/
theorem Bookkeeping.eof_fillWindow (h : s.Bookkeeping) (heof : s.stream.eof = true) :
    s.fillWindow.stream.eof = true := by
  obtain ⟨new, he⟩ := h.exists_emits
  obtain ⟨hended, hsize⟩ := ByteStream.eof_iff.mp heof
  have hempty := he.buffer_eq
  simp only [h.wellFormed.buffer_eq_nil_iff.mpr hsize] at hempty
  have hnil := (List.append_eq_nil_iff.mp hempty.symm).2
  exact ByteStream.eof_iff.mpr ⟨he.inputEnded_eq.trans hended,
    he.wellFormed.buffer_eq_nil_iff.mp hnil⟩

/-- The stream that a sender carries is what was written to it. -/
theorem Carries.length_eq {S : List UInt8} (h : s.Carries S) :
    S.length = s.stream.bytesWritten := by
  have hwf := h.bookkeeping.wellFormed
  have hlen := congrArg List.length h.buffer_eq
  have hread := h.nread_le
  have hcount := hwf.nwritten_eq
  rw [List.length_drop, ← hwf.size_eq] at hlen
  unfold ByteStream.bytesWritten
  omega

/-- **Only a write takes a stream from its end.** -/
theorem Bookkeeping.eof_step (h : s.Bookkeeping) (heof : s.stream.eof = true) {op : SenderOp}
    (hop : op.isWrite = false) : (s.step op).stream.eof = true := by
  cases op with
  | write data => cases hop
  | fillWindow => exact h.eof_fillWindow heof
  | ackReceived stale ackno windowSize =>
    simp only [TCPSender.step]
    rcases s.ackReceived_cases stale ackno windowSize with heq | ⟨-, heq⟩
    · rw [heq]
      exact heof
    · rw [heq]
      refine (h.acknowledged _ windowSize).eof_fillWindow ?_
      rw [acknowledged_eq]
      exact heof
  | tick stale ms =>
    simp only [TCPSender.step, (s.tick_keeps stale ms).2]
    exact heof
  | endInput => exact ByteStream.eof_iff.mpr ⟨rfl, (ByteStream.eof_iff.mp heof).2⟩
  | setError => exact heof
  | sendEmptySegment => exact heof
  | popSegment => exact heof

/-- A run without writes leaves a stream at its end there. -/
theorem Bookkeeping.eof_exec (h : s.Bookkeeping) (heof : s.stream.eof = true) {ops : List SenderOp}
    (hops : ∀ op ∈ ops, op.isWrite = false) :
    (Run.exec TCPSender.step s ops).stream.eof = true :=
  h.exec (I := fun s => s.stream.eof = true)
    (fun _ op hb heof hop => hb.eof_step heof (hops op hop)) heof

end TCPSender

/-! ## Runs -/

/-- A connection in use: `sender` follows its sender, call by call, and `quiet` is the time that has
passed since the last segment arrived. -/
structure ConnectionTrace where
  conn : TCPConnection
  sender : SenderTrace
  quiet : ℕ

namespace ConnectionTrace

def new (cfg : TCPConfig) (randomIsn : WrappingInt32) : ConnectionTrace where
  conn := TCPConnection.new cfg randomIsn
  sender := SenderTrace.new cfg.sendCapacity cfg.rtTimeout (cfg.fixedIsn.getD randomIsn)
  quiet := 0

/-- The time since the last segment: ticks add to it, a segment resets it. -/
def quietAfter (quiet : ℕ) : ConnectionOp → ℕ
  | .tick _ ms => quiet + ms
  | .segmentReceived _ _ => 0
  | _ => quiet

def step (t : ConnectionTrace) (op : ConnectionOp) : ConnectionTrace where
  conn := t.conn.step op
  sender := Run.exec SenderTrace.step t.sender (t.conn.allSenderCalls op)
  quiet := quietAfter t.quiet op

/-- An active connection measures this time. -/
theorem clock_eq_quietAfter {c : TCPConnection} (hactive : c.active = true) (op : ConnectionOp) :
    c.clock op = quietAfter c.timeSinceLastSegmentReceived op := by
  cases op <;> simp [TCPConnection.clock, quietAfter, hactive]

/-- Nothing is written after `end_input_stream`. -/
def WritesOpen (t : ConnectionTrace) : ConnectionOp → Prop
  | .write _ => t.conn.sender.stream.inputEnded = false
  | _ => True

instance (t : ConnectionTrace) : DecidablePred t.WritesOpen := fun op => by
  cases op <;> (dsimp only [WritesOpen]; infer_instance)

end ConnectionTrace

/-! ### The calls of the sender -/

/-- No ending writes to the outbound stream. -/
theorem Ending.isWrite_of_mem {e : Ending} {s : TCPSender} :
    ∀ call ∈ e.senderCalls s, call.isWrite = false := by
  intro call hcall
  rcases Ending.mem_senderCalls hcall with rfl | rfl <;> rfl

namespace TCPConnection

variable {c : TCPConnection} {op : ConnectionOp}

/-- Only `write` writes to the outbound stream. -/
theorem Makes.isWrite {call : SenderOp} (h : Makes op call) (hop : ∀ data, op ≠ .write data) :
    call.isWrite = false := by
  cases h with
  | write data => exact absurd rfl (hop data)
  | _ => rfl

/-- **An outbound stream stays at its end** as long as nothing is written. -/
theorem Sound.eof_prepared (h : c.Sound) (heof : c.sender.stream.eof = true)
    (hop : ∀ data, op ≠ .write data) : (c.prepared op).sender.stream.eof = true :=
  h.bookkeeping.eof_exec heof fun call hcall =>
    (c.makes_of_mem_senderCalls op call hcall).isWrite hop

theorem Sound.eof_step (h : c.Sound) (heof : c.sender.stream.eof = true)
    (hop : ∀ data, op ≠ .write data) : (c.step op).sender.stream.eof = true := by
  rw [step_sender]
  exact h.bookkeeping.eof_exec heof fun call hcall =>
    (c.makes_of_mem_allSenderCalls op call hcall).isWrite hop

end TCPConnection

namespace SenderTrace

/-- Recording does not interfere with the sender. -/
theorem exec_sender (t : SenderTrace) (ops : List SenderOp) :
    (Run.exec SenderTrace.step t ops).sender = Run.exec TCPSender.step t.sender ops :=
  Run.exec_map _ (f := SenderTrace.sender) (fun _ _ => rfl) t ops

theorem always_writesOpen (t : SenderTrace) {ops : List SenderOp}
    (hops : ∀ op ∈ ops, op.isWrite = false) : Run.Always SenderTrace.step WritesOpen t ops :=
  Run.always_of_invariant (I := fun _ => True) (fun _ _ _ _ => trivial)
    (fun _ _ _ hop hwrite => absurd (hop.symm.trans hwrite) Bool.false_ne_true) trivial
    (Run.always_of_forall hops)

end SenderTrace

namespace ConnectionTrace

variable {t : ConnectionTrace} {op : ConnectionOp}

theorem WritesOpen.inputEnded (hop : t.WritesOpen op) (data : List UInt8)
    (hwrite : op = .write data) : t.conn.sender.stream.inputEnded = false := by
  subst hwrite
  exact hop

/-- Nothing is written at the end of the outbound stream. -/
theorem WritesOpen.ne_write (hop : t.WritesOpen op) (heof : t.conn.sender.stream.eof = true)
    (data : List UInt8) : op ≠ .write data := by
  intro hwrite
  have hended := (ByteStream.eof_iff.mp heof).1
  rw [hop.inputEnded data hwrite] at hended
  cases hended

/-- **The invariant of a run**: the history is that of the sender, which is steady; the connection
transmits what was written; its clock is right while it is active; and it intends to linger as long
as the inbound stream has not ended. -/
structure Follows (cfg : TCPConfig) (t : ConnectionTrace) : Prop where
  cfg_eq : t.conn.cfg = cfg
  sender_eq : t.sender.sender = t.conn.sender
  steady : t.sender.Steady
  sound : t.conn.Sound
  transmits : ∃ S, t.conn.Transmits S
  clock_eq : t.conn.active = true → t.conn.timeSinceLastSegmentReceived = t.quiet
  linger : t.conn.receiver.streamOut.inputEnded = false → t.conn.lingerAfterStreamsFinish = true

theorem follows_new (cfg : TCPConfig) (randomIsn : WrappingInt32) :
    (new cfg randomIsn).Follows cfg where
  cfg_eq := rfl
  sender_eq := rfl
  steady := (SenderTrace.live_new _ _ _).toSteady
  sound := TCPConnection.sound_new cfg randomIsn
  transmits := ⟨[], TCPConnection.transmits_new cfg randomIsn⟩
  clock_eq := fun _ => rfl
  linger := fun _ => rfl

/-- The calls of the sender in one call of the connection write only where that is allowed. -/
theorem Follows.always_writesOpen {cfg : TCPConfig} (h : t.Follows cfg) (hop : t.WritesOpen op) :
    Run.Always SenderTrace.step SenderTrace.WritesOpen t.sender (t.conn.allSenderCalls op) := by
  by_cases hwrite : ∃ data, op = .write data
  · obtain ⟨data, rfl⟩ := hwrite
    have hending : ∀ call ∈ (t.conn.ending (.write data)).senderCalls
        (t.conn.prepared (.write data)).sender, call.isWrite = false := Ending.isWrite_of_mem
    simp only [TCPConnection.allSenderCalls, TCPConnection.senderCalls]
    split_ifs
    · exact t.sender.always_writesOpen hending
    · -- the write comes first, and is allowed
      refine ⟨fun _ => ?_, SenderTrace.always_writesOpen _ fun call hcall => ?_⟩
      · rw [h.sender_eq]
        exact hop
      · rcases List.mem_cons.mp hcall with rfl | hm
        · rfl
        · exact hending call hm
  · exact t.sender.always_writesOpen fun call hcall =>
      (t.conn.makes_of_mem_allSenderCalls op call hcall).isWrite
        fun data hdata => hwrite ⟨data, hdata⟩

theorem Follows.step {cfg : TCPConfig} (h : t.Follows cfg) (hop : t.WritesOpen op) :
    (t.step op).Follows cfg := by
  have hsender : (t.step op).sender.sender = (t.step op).conn.sender := by
    change (Run.exec SenderTrace.step t.sender _).sender = (t.conn.step op).sender
    rw [SenderTrace.exec_sender, h.sender_eq, TCPConnection.step_sender]
  obtain ⟨S, hS⟩ := h.transmits
  refine ⟨(t.conn.step_cfg op).trans h.cfg_eq, hsender, ?_, h.sound.step op,
    ⟨_, hS.step h.sound op hop.inputEnded⟩, ?_, ?_⟩
  · exact Run.invariant (fun _ _ h hop => h.step hop) h.steady (h.always_writesOpen hop)
  · -- a connection that is active now was active before the call
    intro hactive
    have hbefore : t.conn.active = true := TCPConnection.active_of_step hactive
    rw [ConnectionTrace.step, TCPConnection.step_time, clock_eq_quietAfter hbefore,
      h.clock_eq hbefore]
  · -- as long as the inbound stream is open, nothing touches the intention
    intro hopen
    have hreceived : (t.conn.received op).streamOut.inputEnded = false := by
      rw [← TCPConnection.step_receiver_inputEnded]
      exact hopen
    have hbefore : t.conn.receiver.streamOut.inputEnded = false := by
      by_contra hf
      rw [TCPConnection.received_inputEnded (by simpa using hf)] at hreceived
      cases hreceived
    exact (TCPConnection.step_linger (Or.inl hreceived)).trans (h.linger hbefore)

/-- An endpoint that has finished its outbound stream and intends to linger keeps both. -/
def Lingers (t : ConnectionTrace) : Prop :=
  t.conn.sender.stream.eof = true ∧ t.conn.lingerAfterStreamsFinish = true

theorem Lingers.step {cfg : TCPConfig} (hl : t.Lingers) (h : t.Follows cfg)
    (hop : t.WritesOpen op) : (t.step op).Lingers := by
  have hwrite := hop.ne_write hl.1
  exact ⟨h.sound.eof_step hl.1 hwrite,
    (TCPConnection.step_linger (Or.inr (h.sound.eof_prepared hl.1 hwrite))).trans hl.2⟩

end ConnectionTrace

/-- **A clean close is conclusive.** Let nothing be written after `end_input_stream`, and let the
peer send anything at all. A call that makes the connection inactive, with no error on either
stream, leaves the inbound stream ended, the outbound stream at its end, the FIN sent and nothing in
flight; the next sequence number is the one after the FIN, and the sender has accepted an
acknowledgment of exactly that number. -/
theorem clean_close_conclusive (cfg : TCPConfig) (randomIsn : WrappingInt32)
    (ops : List ConnectionOp) (op : ConnectionOp)
    (hopen : Run.Always ConnectionTrace.step ConnectionTrace.WritesOpen
      (ConnectionTrace.new cfg randomIsn) (ops ++ [op])) :
    let t := Run.exec ConnectionTrace.step (ConnectionTrace.new cfg randomIsn) ops
    let t' := t.step op
    t.conn.active = true → t'.conn.active = false → ¬ t'.conn.Erred →
      t'.conn.receiver.streamOut.inputEnded = true ∧ t'.conn.sender.stream.eof = true ∧
        t'.conn.sender.finSent = true ∧ t'.conn.sender.bytesInFlight = 0 ∧
        t'.conn.sender.nextSeqno = t'.conn.sender.stream.bytesWritten + 2 ∧
        t'.sender.sender = t'.conn.sender ∧
        ∃ windowSize, (t'.conn.sender.nextSeqno, windowSize) ∈ t'.sender.acks := by
  intro t t' hactive hclosed herr
  obtain ⟨hbefore, hlast, -⟩ := Run.always_append.mp hopen
  have h : t.Follows cfg := Run.invariant (fun _ _ h hop => h.step hop)
    (ConnectionTrace.follows_new cfg randomIsn) hbefore
  have h' : t'.Follows cfg := h.step hlast
  obtain ⟨hsend, hended, heof, hbif, -⟩ := TCPConnection.step_closes hactive hclosed herr
  -- the call ended by sending, which changes neither stream and nothing in flight
  have hsender : t'.conn.sender = { (t.conn.prepared op).sender with segmentsOut := [] } := by
    change (t.conn.step op).sender = _
    rw [TCPConnection.step_eq, hsend]
    exact TCPConnection.sendSenderSegments_sender _
  have heof' : t'.conn.sender.stream.eof = true := by
    rw [hsender]
    exact heof
  have hbif' : t'.conn.sender.bytesInFlight = 0 := by
    rw [hsender]
    exact hbif
  have hlive : t'.sender.Live := ⟨h'.steady, h'.sender_eq.symm ▸ h'.sound.settled⟩
  obtain ⟨hfin, hack⟩ := hlive.closed (h'.sender_eq.symm ▸ heof') (h'.sender_eq.symm ▸ hbif')
  rw [h'.sender_eq] at hfin hack
  obtain ⟨S, hS⟩ := h'.transmits
  refine ⟨?_, heof', hfin, hbif', ?_, h'.sender_eq, hack⟩
  · exact (t.conn.step_receiver_inputEnded op).trans hended
  · rw [hS.carries.nextSeqno_of_finSent hfin, hS.carries.length_eq]

/-- The theorem on an endpoint that is closed by its peer, and then by its application. -/
theorem clean_close_conclusive_passive :
    let cfg : TCPConfig := { recvCapacity := 4, sendCapacity := 4, fixedIsn := some ⟨0⟩ }
    let ops : List ConnectionOp :=
      [.segmentReceived {} { header := { seqno := ⟨100⟩, syn := true } },
        .segmentReceived {} { header := { seqno := ⟨101⟩, ack := true, ackno := ⟨1⟩, win := 9 } },
        .segmentReceived {}
          { header := { seqno := ⟨101⟩, ack := true, ackno := ⟨1⟩, win := 9, fin := true } },
        .endInputStream]
    let op : ConnectionOp :=
      .segmentReceived {} { header := { seqno := ⟨102⟩, ack := true, ackno := ⟨2⟩, win := 9 } }
    let t := Run.exec ConnectionTrace.step (ConnectionTrace.new cfg ⟨0⟩) ops
    t.conn.active = true ∧ (t.step op).conn.active = false ∧
      (t.step op).conn.sender.finSent = true ∧ (t.step op).conn.sender.bytesInFlight = 0 := by
  intro cfg ops op t
  have hactive : t.conn.active = true := by decide
  have hclosed : (t.step op).conn.active = false := by decide
  have h := clean_close_conclusive cfg ⟨0⟩ ops op (by decide) hactive hclosed (by decide)
  exact ⟨hactive, hclosed, h.2.2.1, h.2.2.2.1⟩

/-- **The side that finishes first waits.** Let nothing be written after `end_input_stream`, and let
the peer send anything at all. If at some point the outbound stream is at its end while the inbound
stream has not ended, then a later call that makes the connection inactive, with no error on either
stream, comes at least ten times the retransmission timeout after the last segment. -/
theorem time_wait_honoured (cfg : TCPConfig) (randomIsn : WrappingInt32)
    (ops later : List ConnectionOp) (op : ConnectionOp)
    (hopen : Run.Always ConnectionTrace.step ConnectionTrace.WritesOpen
      (ConnectionTrace.new cfg randomIsn) (ops ++ later ++ [op])) :
    let t := Run.exec ConnectionTrace.step (ConnectionTrace.new cfg randomIsn) ops
    let t₁ := Run.exec ConnectionTrace.step (ConnectionTrace.new cfg randomIsn) (ops ++ later)
    let t' := t₁.step op
    t.conn.sender.stream.eof = true → t.conn.receiver.streamOut.inputEnded = false →
      t₁.conn.active = true → t'.conn.active = false → ¬ t'.conn.Erred →
      10 * cfg.rtTimeout.toNat ≤ t'.quiet := by
  intro t t₁ t' heof hinbound hactive hclosed herr
  obtain ⟨hbefore, -⟩ := Run.always_append.mp hopen
  obtain ⟨hops, hlater⟩ := Run.always_append.mp hbefore
  have h : t.Follows cfg := Run.invariant (fun _ _ h hop => h.step hop)
    (ConnectionTrace.follows_new cfg randomIsn) hops
  -- from then on the endpoint intends to linger
  have h₁ : t₁.Follows cfg ∧ t₁.Lingers := by
    have ht₁ : t₁ = Run.exec ConnectionTrace.step t later := Run.exec_append _ _ _ _
    rw [ht₁]
    exact Run.invariant
      (I := fun t : ConnectionTrace => t.Follows cfg ∧ t.Lingers)
      (fun _ _ h hop => ⟨h.1.step hop, h.2.step h.1 hop⟩)
      ⟨h, heof, h.linger hinbound⟩ hlater
  obtain ⟨-, -, -, -, hwaited⟩ := TCPConnection.step_closes hactive hclosed herr
  rw [h₁.2.2, h₁.1.cfg_eq, ConnectionTrace.clock_eq_quietAfter hactive,
    h₁.1.clock_eq hactive] at hwaited
  exact hwaited.resolve_left (by simp)

/-- The theorem on an endpoint that closes first, hears the FIN of its peer and waits. -/
theorem time_wait_honoured_active_close :
    let cfg : TCPConfig :=
      { rtTimeout := 1, recvCapacity := 4, sendCapacity := 4, fixedIsn := some ⟨0⟩ }
    let ops : List ConnectionOp :=
      [.connect,
        .segmentReceived {}
          { header := { seqno := ⟨100⟩, syn := true, ack := true, ackno := ⟨1⟩, win := 9 } },
        .endInputStream]
    let later : List ConnectionOp :=
      [.segmentReceived {}
        { header := { seqno := ⟨101⟩, fin := true, ack := true, ackno := ⟨2⟩, win := 9 } },
      .tick {} 9]
    let t₁ := Run.exec ConnectionTrace.step (ConnectionTrace.new cfg ⟨0⟩) (ops ++ later)
    let t' := t₁.step (.tick {} 1)
    t₁.conn.active = true ∧ t'.conn.active = false ∧ 10 ≤ t'.quiet := by
  intro cfg ops later t₁ t'
  have hactive : t₁.conn.active = true := by decide
  have hclosed : t'.conn.active = false := by decide
  exact ⟨hactive, hclosed, time_wait_honoured cfg ⟨0⟩ ops later (.tick {} 1) (by decide)
    (by decide) (by decide) hactive hclosed (by decide)⟩

end Sponge
