import Mathlib.Tactic
import Sponge.Foundations.Run
import Sponge.TCPConnection

/-!
# The anatomy of a call

Every call of a connection has two parts: it moves the receiver, makes some calls of the sender and
sets the clock, and then it ends in one of five ways, which alone decide what is appended to
`segments_out()` and whether the connection stays active. `step_eq` is this decomposition. What a
connection does to its sender is a run of the sender, so that every invariant of the sender's calls
is one of the connection's.

## Main definitions

* `TCPConnection.prepared`: the connection before the call ends
* `Ending`, `TCPConnection.ending`: how a call ends
* `TCPConnection.appendedBy`: the segments that a call appends to `segments_out()`

## Main results

* `TCPConnection.step_eq`: a call is its preparation and its ending
* `TCPConnection.step_sender`: a call is a run of the sender
* `TCPConnection.appendedBy_eq`: what a call appends
-/

namespace Sponge

/-! ## Endings -/

/-- How a call ends. -/
inductive Ending where
  /-- nothing is sent -/
  | rest
  /-- `send_sender_segments` -/
  | send
  /-- `unclean_shutdown`, after a RST -/
  | reset (stale : TCPSegment)
  /-- `unclean_shutdown` and `send_sender_segments`, after too many retransmissions -/
  | giveUp (stale : TCPSegment)
  /-- both streams are set to error, and no segment is sent -/
  | refuse
  deriving DecidableEq, Repr

namespace Ending

def apply : Ending → TCPConnection → TCPConnection
  | .rest, c => c
  | .send, c => c.sendSenderSegments
  | .reset stale, c => c.uncleanShutdown stale
  | .giveUp stale, c => (c.uncleanShutdown stale).sendSenderSegments
  | .refuse, c => { c.setErrors with active := false }

/-- The segments that an ending appends to `segments_out()`. -/
def sent : Ending → TCPConnection → List TCPSegment
  | .rest, _ => []
  | .send, c => c.sender.segmentsOut.map c.receiver.stamp
  | .reset stale, c => [c.receiver.stampReset (c.sender.segmentsOut.headD stale)]
  | .giveUp stale, c =>
    c.receiver.stampReset (c.sender.segmentsOut.headD stale) ::
      c.sender.segmentsOut.tail.map c.receiver.stamp
  | .refuse, _ => []

/-- The calls of the sender that an ending makes. -/
def senderCalls : Ending → TCPSender → List SenderOp
  | .rest, _ => []
  | .send, s => List.replicate s.segmentsOut.length .popSegment
  | .reset _, _ => [.setError, .popSegment]
  | .giveUp _, s => .setError :: .popSegment ::
      List.replicate s.segmentsOut.tail.length .popSegment
  | .refuse, _ => [.setError]

/-- The ending sends a RST. -/
def resets : Ending → Bool
  | .reset _ | .giveUp _ => true
  | _ => false

/-- The ending sets both streams to error. -/
def aborts : Ending → Bool
  | .reset _ | .giveUp _ | .refuse => true
  | _ => false

end Ending

namespace TCPConnection

variable {c : TCPConnection}

/-- The calls of the sender that a call makes before it ends. -/
def senderCalls (c : TCPConnection) : ConnectionOp → List SenderOp
  | .connect => [.fillWindow]
  | .write data => if data.length = 0 then [] else [.write data, .fillWindow]
  | .endInputStream => [.endInput, .fillWindow]
  | .tick stale ms => if c.active then [.tick stale ms] else []
  | .segmentReceived stale seg =>
    match c.path seg with
    | .answered => [.fillWindow]
    | .simultaneous => [.sendEmptySegment]
    | .exchanged =>
      let s := c.sender.ackReceived stale seg.header.ackno seg.header.win
      .ackReceived stale seg.header.ackno seg.header.win ::
        ((if s.stream.bufferEmpty && seg.lengthInSequenceSpace != 0 then [.sendEmptySegment]
          else []) ++
        if seg.header.rst then [.sendEmptySegment] else [])
    | _ => []
  | .read _ => []
  | .popSegment => []

/-- The receiver after a call, errors aside. -/
def received (c : TCPConnection) : ConnectionOp → TCPReceiver
  | .segmentReceived _ seg =>
    match c.path seg with
    | .answered | .simultaneous | .exchanged => (c.receiver.segmentReceived seg).1
    | _ => c.receiver
  | .read len => c.receiver.mapStreamOut fun s => (s.read len).1
  | _ => c.receiver

/-- The time since the last segment, after a call. -/
def clock (c : TCPConnection) : ConnectionOp → ℕ
  | .tick _ ms =>
    if c.active then c.timeSinceLastSegmentReceived + ms else c.timeSinceLastSegmentReceived
  | .segmentReceived _ _ => if c.active then 0 else c.timeSinceLastSegmentReceived
  | _ => c.timeSinceLastSegmentReceived

/-- `segments_out()` before a call ends: its owner may take a segment. -/
def queue (c : TCPConnection) : ConnectionOp → List TCPSegment
  | .popSegment => c.segmentsOut.tail
  | _ => c.segmentsOut

/-- The connection before a call ends. -/
def prepared (c : TCPConnection) (op : ConnectionOp) : TCPConnection :=
  { c with
    sender := Run.exec TCPSender.step c.sender (c.senderCalls op)
    receiver := c.received op
    timeSinceLastSegmentReceived := c.clock op
    segmentsOut := c.queue op }

/-- How a call ends. -/
def ending (c : TCPConnection) : ConnectionOp → Ending
  | .connect => .send
  | .write data => if data.length = 0 then .rest else .send
  | .endInputStream => .send
  | .tick stale ms =>
    if c.active then
      if TCPConfig.maxRetxAttempts < (c.sender.tick stale ms).consecutiveRetransmissions.toNat then
        .giveUp stale
      else .send
    else .rest
  | .segmentReceived stale seg =>
    match c.path seg with
    | .answered => .send
    | .refused => .refuse
    | .exchanged => if seg.header.rst then .reset stale else .send
    | _ => .rest
  | .read _ => .rest
  | .popSegment => .rest

theorem received_exchanged {stale seg : TCPSegment} (hpath : c.path seg = .exchanged) :
    c.received (.segmentReceived stale seg) = (c.receiver.segmentReceived seg).1 := by
  simp only [received, hpath]

/-- The acknowledgment of a segment goes to the sender, and empty segments are queued after what it
sends. -/
theorem prepared_exchanged {stale seg : TCPSegment} (hpath : c.path seg = .exchanged) :
    (c.prepared (.segmentReceived stale seg)).sender =
      let s := c.sender.ackReceived stale seg.header.ackno seg.header.win
      let n := (if s.stream.bufferEmpty && seg.lengthInSequenceSpace != 0 then 1 else 0) +
        if seg.header.rst then 1 else 0
      { s with segmentsOut := s.segmentsOut ++ List.replicate n (s.numbered {}) } := by
  simp only [prepared, senderCalls, hpath]
  rw [Run.exec_cons, Run.exec_append]
  simp only [TCPSender.step]
  split_ifs <;> simp [TCPSender.step, TCPSender.sendEmptySegment, TCPSender.numbered]

/-- An active connection gives a tick to its sender. -/
theorem prepared_tick (hactive : c.active = true) {stale : TCPSegment} {ms : ℕ} :
    (c.prepared (.tick stale ms)).sender = c.sender.tick stale ms := by
  simp only [prepared, senderCalls, hactive, if_true]
  rfl

/-- **A call is its preparation and its ending.** -/
theorem step_eq (c : TCPConnection) (op : ConnectionOp) :
    c.step op = (c.ending op).apply (c.prepared op) := by
  cases op with
  | connect => rfl
  | write data =>
    by_cases hempty : data.length = 0
    · simp only [step, write, ending, prepared, senderCalls, hempty, if_true]
      rfl
    · simp only [step, write, ending, prepared, senderCalls, hempty, if_false]
      rfl
  | endInputStream => rfl
  | tick stale ms =>
    simp only [step, tick, ending, prepared, senderCalls, clock]
    by_cases hactive : c.active = true
    · rw [if_neg (by simp [hactive]), if_pos hactive, if_pos hactive, if_pos hactive]
      simp only [mapSender_sender]
      by_cases hlimit : TCPConfig.maxRetxAttempts <
          (c.sender.tick stale ms).consecutiveRetransmissions.toNat
      · simp only [hlimit, if_true]
        rfl
      · simp only [hlimit, if_false]
        rfl
    · rw [if_pos (by simpa using hactive), if_neg hactive, if_neg hactive, if_neg hactive]
      rfl
  | segmentReceived stale seg =>
    simp only [step, segmentReceived_path, ending, prepared, senderCalls, received, clock]
    by_cases hactive : c.active = true
    · rw [if_pos hactive]
      cases hpath : c.path seg with
      | inactive =>
        rw [path_eq_inactive_iff.mp hpath] at hactive
        cases hactive
      | ignored => rfl
      | answered => rfl
      | simultaneous => rfl
      | refused => rfl
      | exchanged =>
        simp only [exchange, absorb_sender, heard_sender]
        by_cases hanswer : ((c.sender.ackReceived stale seg.header.ackno
            seg.header.win).stream.bufferEmpty && seg.lengthInSequenceSpace != 0) = true <;>
          by_cases hrst : seg.header.rst = true <;>
          simp only [hanswer, hrst, if_true, if_false, Bool.false_eq_true] <;> rfl
    · rw [path_eq_inactive_iff.mpr (by simpa using hactive), if_neg hactive]
      rfl
  | read len => rfl
  | popSegment => rfl

end TCPConnection

/-! ## What an ending does -/

@[simp] theorem TCPConnection.sendSenderSegments_cfg (c : TCPConnection) :
    c.sendSenderSegments.cfg = c.cfg := by
  rw [sendSenderSegments, drain_eq _ rfl]
  rcases cleanShutdown_cases _ with ⟨_, h⟩ | ⟨-, -, -, h⟩ <;> rw [h]

@[simp] theorem TCPConnection.sendSenderSegments_time (c : TCPConnection) :
    c.sendSenderSegments.timeSinceLastSegmentReceived = c.timeSinceLastSegmentReceived := by
  rw [sendSenderSegments, drain_eq _ rfl]
  rcases cleanShutdown_cases _ with ⟨_, h⟩ | ⟨-, -, -, h⟩ <;> rw [h]

/-- What each of the calls preserves, from the bookkeeping on, a run of the sender preserves. -/
theorem TCPSender.Bookkeeping.exec {s : TCPSender} (h : s.Bookkeeping) {I : TCPSender → Prop}
    {calls : List SenderOp}
    (hstep : ∀ s call, s.Bookkeeping → I s → call ∈ calls → I (s.step call)) (hI : I s) :
    I (Run.exec TCPSender.step s calls) :=
  (Run.invariant (I := fun s : TCPSender => s.Bookkeeping ∧ I s)
    (fun s call hs hcall => ⟨hs.1.step call, hstep s call hs.1 hs.2 hcall⟩) ⟨h, hI⟩
    (Run.always_of_forall fun _ hcall => hcall)).2

/-- Segments are taken from the queue of the sender one by one. -/
theorem TCPSender.exec_popSegment (s : TCPSender) (n : ℕ) :
    Run.exec TCPSender.step s (List.replicate n .popSegment) =
      { s with segmentsOut := s.segmentsOut.drop n } := by
  induction n generalizing s with
  | zero => rfl
  | succ n ih =>
    rw [List.replicate_succ, Run.exec_cons, ih]
    simp [TCPSender.step]

namespace Ending

/-- An ending takes segments from the queue of the sender and sets errors. -/
theorem mem_senderCalls {e : Ending} {s : TCPSender} {call : SenderOp}
    (h : call ∈ e.senderCalls s) : call = .setError ∨ call = .popSegment := by
  cases e with
  | send => exact Or.inr (List.eq_of_mem_replicate h)
  | giveUp stale =>
    rcases List.mem_cons.mp h with rfl | hm
    · exact Or.inl rfl
    · rcases List.mem_cons.mp hm with rfl | hm
      · exact Or.inr rfl
      · exact Or.inr (List.eq_of_mem_replicate hm)
  | rest => cases h
  | reset stale => simpa [senderCalls] using h
  | refuse => exact Or.inl (List.mem_singleton.mp h)

/-- **What an ending sends** is a queued segment with the stamp of `send_sender_segments`, or the
first of them with that of the RST. -/
theorem mem_sent {e : Ending} {c : TCPConnection} {seg : TCPSegment} (h : seg ∈ e.sent c) :
    (∃ seg₀ ∈ c.sender.segmentsOut, seg = c.receiver.stamp seg₀) ∨
      (e.resets = true ∧
        ∃ stale, seg = c.receiver.stampReset (c.sender.segmentsOut.headD stale)) := by
  cases e with
  | rest => cases h
  | send =>
    obtain ⟨seg₀, hm, rfl⟩ := List.mem_map.mp h
    exact Or.inl ⟨seg₀, hm, rfl⟩
  | reset stale => exact Or.inr ⟨rfl, stale, List.mem_singleton.mp h⟩
  | giveUp stale =>
    rcases List.mem_cons.mp h with rfl | hm
    · exact Or.inr ⟨rfl, stale, rfl⟩
    · obtain ⟨seg₀, hm₀, rfl⟩ := List.mem_map.mp hm
      exact Or.inl ⟨seg₀, List.mem_of_mem_tail hm₀, rfl⟩
  | refuse => cases h

variable (e : Ending) (c : TCPConnection)

theorem apply_sender :
    (e.apply c).sender = Run.exec TCPSender.step c.sender (e.senderCalls c.sender) := by
  cases e with
  | rest => rfl
  | send =>
    rw [apply, senderCalls, TCPSender.exec_popSegment, List.drop_length,
      TCPConnection.sendSenderSegments_sender]
  | reset stale => rfl
  | giveUp stale =>
    have hempty : c.sender.segmentsOut.tail.drop c.sender.segmentsOut.tail.length = [] :=
      List.drop_length
    rw [apply, senderCalls, TCPConnection.sendSenderSegments_sender, Run.exec_cons, Run.exec_cons,
      TCPSender.exec_popSegment]
    simp only [TCPSender.step, TCPSender.mapStreamIn, TCPConnection.uncleanShutdown_sender, hempty]
  | refuse => rfl

theorem apply_receiver :
    (e.apply c).receiver =
      if e.aborts then c.receiver.mapStreamOut ByteStream.setError else c.receiver := by
  cases e with
  | rest => rfl
  | send => exact c.sendSenderSegments_receiver
  | reset stale => rfl
  | giveUp stale => exact (c.uncleanShutdown stale).sendSenderSegments_receiver
  | refuse => rfl

@[simp] theorem apply_receiver_ackno : (e.apply c).receiver.ackno = c.receiver.ackno := by
  rw [apply_receiver]
  split_ifs <;> rfl

@[simp] theorem apply_receiver_windowSize :
    (e.apply c).receiver.windowSize = c.receiver.windowSize := by
  rw [apply_receiver]
  split_ifs <;> rfl

@[simp] theorem apply_receiver_inputEnded :
    (e.apply c).receiver.streamOut.inputEnded = c.receiver.streamOut.inputEnded := by
  rw [apply_receiver]
  split_ifs <;> rfl

theorem apply_cfg : (e.apply c).cfg = c.cfg := by
  cases e with
  | send => exact c.sendSenderSegments_cfg
  | giveUp stale => exact (c.uncleanShutdown stale).sendSenderSegments_cfg
  | _ => rfl

/-- No ending changes what the sender has sent. -/
theorem apply_keeps : TCPSender.Keeps c.sender (e.apply c).sender := by
  cases e with
  | send =>
    rw [apply, TCPConnection.sendSenderSegments_sender]
    exact c.sender.setSegmentsOut_keeps _
  | giveUp stale =>
    rw [apply, TCPConnection.sendSenderSegments_sender]
    exact ⟨rfl, rfl, rfl, rfl, rfl, rfl, rfl, rfl, rfl⟩
  | _ => exact ⟨rfl, rfl, rfl, rfl, rfl, rfl, rfl, rfl, rfl⟩

/-- No ending sets the clock. -/
theorem apply_time :
    (e.apply c).timeSinceLastSegmentReceived = c.timeSinceLastSegmentReceived := by
  cases e with
  | send => exact c.sendSenderSegments_time
  | giveUp stale => exact (c.uncleanShutdown stale).sendSenderSegments_time
  | _ => rfl

theorem apply_segmentsOut : (e.apply c).segmentsOut = c.segmentsOut ++ e.sent c := by
  cases e with
  | rest => exact (List.append_nil _).symm
  | send => exact c.sendSenderSegments_segmentsOut
  | reset stale => rfl
  | giveUp stale =>
    rw [apply, TCPConnection.sendSenderSegments_segmentsOut]
    exact List.append_assoc _ _ _
  | refuse => exact (List.append_nil _).symm

end Ending

namespace TCPConnection

variable (c : TCPConnection) (op : ConnectionOp)

/-- The calls of the sender that a call makes. -/
def allSenderCalls : List SenderOp :=
  c.senderCalls op ++ (c.ending op).senderCalls (c.prepared op).sender

/-- Which calls of the sender a call can make. -/
inductive Makes : ConnectionOp → SenderOp → Prop
  | write (data : List UInt8) : Makes (.write data) (.write data)
  | endInput : Makes .endInputStream .endInput
  | tick (stale : TCPSegment) (ms : ℕ) : Makes (.tick stale ms) (.tick stale ms)
  | ackReceived (stale seg : TCPSegment) :
      Makes (.segmentReceived stale seg) (.ackReceived stale seg.header.ackno seg.header.win)
  | fillWindow (op : ConnectionOp) : Makes op .fillWindow
  | sendEmptySegment (op : ConnectionOp) : Makes op .sendEmptySegment
  | setError (op : ConnectionOp) : Makes op .setError
  | popSegment (op : ConnectionOp) : Makes op .popSegment

theorem makes_of_mem_senderCalls : ∀ call ∈ c.senderCalls op, Makes op call := by
  cases op with
  | write data =>
    simp only [senderCalls]
    split_ifs <;> simp [Makes.write, Makes.fillWindow]
  | tick stale ms =>
    simp only [senderCalls]
    split_ifs <;> simp [Makes.tick]
  | segmentReceived stale seg =>
    simp only [senderCalls]
    cases c.path seg with
    | exchanged =>
      dsimp only
      split_ifs <;> simp [Makes.ackReceived, Makes.sendEmptySegment]
    | _ => simp [Makes.fillWindow, Makes.sendEmptySegment]
  | _ => simp [senderCalls, Makes.fillWindow, Makes.endInput]

/-- Only a segment that is exchanged gives the sender an acknowledgment. -/
theorem exists_exchanged_of_mem {c : TCPConnection} {op : ConnectionOp} {stale : TCPSegment}
    {ackno : WrappingInt32} {w : UInt16} (h : .ackReceived stale ackno w ∈ c.senderCalls op) :
    ∃ stale seg, op = .segmentReceived stale seg ∧ c.path seg = .exchanged := by
  cases c.makes_of_mem_senderCalls op _ h with
  | ackReceived _ seg =>
    refine ⟨stale, seg, rfl, ?_⟩
    simp only [senderCalls] at h
    cases hpath : c.path seg with
    | exchanged => rfl
    | _ => simp [hpath] at h

theorem makes_of_mem_allSenderCalls : ∀ call ∈ c.allSenderCalls op, Makes op call := by
  intro call hcall
  rcases List.mem_append.mp hcall with hm | hm
  · exact c.makes_of_mem_senderCalls op call hm
  · rcases Ending.mem_senderCalls hm with rfl | rfl
    · exact Makes.setError op
    · exact Makes.popSegment op

/-- **A call is a run of the sender.** -/
theorem step_sender :
    (c.step op).sender = Run.exec TCPSender.step c.sender (c.allSenderCalls op) := by
  rw [step_eq, Ending.apply_sender, allSenderCalls, Run.exec_append]
  rfl

/-- Nothing of what the sender keeps account of changes when a call ends. -/
theorem step_keeps : TCPSender.Keeps (c.prepared op).sender (c.step op).sender := by
  rw [step_eq]
  exact Ending.apply_keeps _ _

theorem step_cfg : (c.step op).cfg = c.cfg := by
  rw [step_eq, Ending.apply_cfg]
  rfl

theorem step_time : (c.step op).timeSinceLastSegmentReceived = c.clock op := by
  rw [step_eq, Ending.apply_time]
  rfl

/-- What happens to the acknowledgment number and the window of the receiver happens before the call
ends. -/
theorem step_receiver_ackno : (c.step op).receiver.ackno = (c.received op).ackno := by
  rw [step_eq, Ending.apply_receiver_ackno]
  rfl

theorem step_receiver_windowSize :
    (c.step op).receiver.windowSize = (c.received op).windowSize := by
  rw [step_eq, Ending.apply_receiver_windowSize]
  rfl

theorem step_receiver_inputEnded :
    (c.step op).receiver.streamOut.inputEnded = (c.received op).streamOut.inputEnded := by
  rw [step_eq, Ending.apply_receiver_inputEnded]
  rfl

/-- The segments that a call appends to `segments_out()`. -/
def appendedBy (c : TCPConnection) : ConnectionOp → List TCPSegment
  | .popSegment => []
  | op => (c.step op).segmentsOut.drop c.segmentsOut.length

/-- **What a call appends.** -/
theorem appendedBy_eq : c.appendedBy op = (c.ending op).sent (c.prepared op) := by
  have hdrop : c.queue op = c.segmentsOut → (c.step op).segmentsOut.drop c.segmentsOut.length =
      (c.ending op).sent (c.prepared op) := by
    intro hqueue
    have hprepared : (c.prepared op).segmentsOut = c.segmentsOut := hqueue
    rw [step_eq, Ending.apply_segmentsOut, hprepared, List.drop_left]
  cases op with
  | popSegment => rfl
  | _ => exact hdrop rfl

end TCPConnection

end Sponge
