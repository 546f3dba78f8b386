import Mathlib.Tactic
import Sponge.TCPConnection.States
import Sponge.TCPHelpers.FdAdapter.Lawful
import Sponge.TCPReceiver.Placement

/-!
# The conduct of a connection

What the owner of a connection may rely on, whatever arrives. All that the connection sends has a
header without options and a payload within the limit, so that an adapter can carry it. It transmits
what was written to it, the bytes of its inbound stream are only appended to and read from the
front, and it becomes inactive for one of two reasons: an error, of which both streams tell, or
because both streams are finished.

## Main definitions

* `TCPConnection.Fitting`: all that the connection has queued can be carried
* `TCPConnection.Conducts S`: the invariant of every connection that transmits `S`

## Main results

* `TCPConnection.Conducts.step`: every call keeps it, unless it writes after the end of the input
* `TCPConnection.Conducts.concluded`: why a connection is inactive
* `ReceiverMove.buffer_eq`: a call appends to the inbound stream
-/

namespace Sponge

theorem TCPSegment.Plain.fits {seg : TCPSegment} (h : seg.Plain)
    (hle : seg.payload.length ≤ TCPConfig.maxPayloadSize) : seg.Fits := by
  refine ⟨?_, hle⟩
  unfold TCPSegment.Plain at h
  rw [h]

namespace TCPSender

variable {s : TCPSender}

/-- All that the sender has queued or outstanding can be carried. -/
def Fitting (s : TCPSender) : Prop :=
  ∀ seg ∈ s.segmentsOut ++ s.segmentsOutstanding, seg.Fits

theorem Fitting.fillWindow (h : s.Fitting) (hb : s.Bookkeeping) : s.fillWindow.Fitting := by
  obtain ⟨new, he⟩ := hb.exists_emits
  have hnew : ∀ seg ∈ new, seg.Fits := fun seg hseg =>
    (he.plain seg hseg).fits (he.payload_le seg hseg)
  intro seg hseg
  rw [he.segmentsOut_eq, he.outstanding_eq] at hseg
  simp only [List.mem_append] at hseg
  rcases hseg with (hm | hm) | hm | hm
  · exact h seg (List.mem_append_left _ hm)
  · exact hnew seg hm
  · exact h seg (List.mem_append_right _ hm)
  · exact hnew seg hm

/-- **Every call of a sender** queues only what can be carried. -/
theorem Fitting.step (h : s.Fitting) (hb : s.Bookkeeping) (op : SenderOp) :
    (s.step op).Fitting := by
  cases op with
  | fillWindow => exact h.fillWindow hb
  | ackReceived stale ackno windowSize =>
    simp only [TCPSender.step]
    rcases s.ackReceived_cases stale ackno windowSize with heq | ⟨-, heq⟩
    · rw [heq]
      exact h
    · rw [heq]
      refine Fitting.fillWindow ?_ (hb.acknowledged _ windowSize)
      rw [acknowledged_eq]
      intro seg hseg
      rcases List.mem_append.mp hseg with hm | hm
      · exact h seg (List.mem_append_left _ hm)
      · exact h seg (List.mem_append_right _ (List.dropWhile_subset _ hm))
  | tick stale ms =>
    intro seg hseg
    rcases List.mem_append.mp hseg with hm | hm
    · exact h seg (List.mem_append.mpr (hb.mem_tick_segmentsOut hm))
    · rw [TCPSender.step, (s.tick_keeps stale ms).1.outstanding_eq] at hm
      exact h seg (List.mem_append_right _ hm)
  | sendEmptySegment =>
    intro seg hseg
    simp only [TCPSender.step, sendEmptySegment, List.mem_append, List.mem_singleton] at hseg
    rcases hseg with (hm | rfl) | hm
    · exact h seg (List.mem_append_left _ hm)
    · exact ⟨rfl, Nat.zero_le _⟩
    · exact h seg (List.mem_append_right _ hm)
  | popSegment =>
    intro seg hseg
    rcases List.mem_append.mp hseg with hm | hm
    · exact h seg (List.mem_append_left _ (List.mem_of_mem_tail hm))
    · exact h seg (List.mem_append_right _ hm)
  | write data => exact h
  | endInput => exact h
  | setError => exact h

/-! ## A sender that is done -/

/-- **By the count of the sender everything is acknowledged**, the end of the stream included. -/
def FullyAcked (s : TCPSender) : Prop :=
  s.finSent = true ∧ s.bytesInFlight = 0

/-- A sender with nothing outstanding whose input has ended is done. -/
theorem Settled.fullyAcked (h : s.Settled) (hb : s.Bookkeeping)
    (hended : s.stream.inputEnded = true) (hnone : s.bytesInFlight = 0) : s.FullyAcked := by
  rcases h (hb.bytesInFlight_eq_zero_iff.mp hnone) with hfin | ⟨-, hopen⟩
  · exact ⟨hfin, hnone⟩
  · rw [hended] at hopen
    cases hopen

theorem FullyAcked.step (h : s.FullyAcked) (hb : s.Bookkeeping) (op : SenderOp) :
    (s.step op).FullyAcked := by
  obtain ⟨hfin, hnone⟩ := h
  cases op with
  | fillWindow =>
    simp only [TCPSender.step, hb.fillWindow_of_finSent hfin]
    exact ⟨hfin, hnone⟩
  | ackReceived stale ackno windowSize =>
    simp only [TCPSender.step]
    rcases s.ackReceived_cases stale ackno windowSize with heq | ⟨-, heq⟩
    · rw [heq]
      exact ⟨hfin, hnone⟩
    · have hfin' : (s.acknowledged (unwrap ackno s.isn s.nextSeqno) windowSize).finSent = true := by
        rw [acknowledged_eq]
        exact hfin
      rw [heq, (hb.acknowledged _ windowSize).fillWindow_of_finSent hfin', acknowledged_eq]
      exact ⟨hfin, by simp [hnone]⟩
  | tick stale ms =>
    have hk := (s.tick_keeps stale ms).1
    exact ⟨hk.finSent_eq.trans hfin, hk.bytesInFlight_eq.trans hnone⟩
  | sendEmptySegment => exact ⟨hfin, hnone⟩
  | popSegment => exact ⟨hfin, hnone⟩
  | write data => exact ⟨hfin, hnone⟩
  | endInput => exact ⟨hfin, hnone⟩
  | setError => exact ⟨hfin, hnone⟩

end TCPSender

namespace TCPReceiver

variable {r : TCPReceiver} {seg : TCPSegment}

/-- A stamp changes neither the length of the header nor the payload. -/
theorem fits_stamp (h : seg.Fits) : (r.stamp seg).Fits := by
  unfold stamp
  split
  · exact h
  · exact h

end TCPReceiver

namespace TCPConnection

variable {c : TCPConnection}

/-- **All that the connection has queued can be carried.** -/
structure Fitting (c : TCPConnection) : Prop extends Orderly c where
  sender : c.sender.Fitting
  out : ∀ seg ∈ c.segmentsOut, seg.Fits

theorem fitting_new (cfg : TCPConfig) (randomIsn : WrappingInt32) :
    (new cfg randomIsn).Fitting where
  toOrderly := orderly_new cfg randomIsn
  sender := by simp [new, TCPSender.new, TCPSender.Fitting]
  out := by simp [new]

/-- **Every call keeps this.** -/
theorem Fitting.step (h : c.Fitting) (op : ConnectionOp) : (c.step op).Fitting where
  toOrderly := h.toOrderly.step op
  sender := by
    rw [step_sender]
    exact h.bookkeeping.exec (fun _ call hb hs _ => hs.step hb call) h.sender
  out := by
    have hprepared : (c.prepared op).sender.Fitting :=
      h.bookkeeping.exec (fun _ call hb hs _ => hs.step hb call) h.sender
    have hnew : ∀ seg ∈ c.appendedBy op, seg.Fits :=
      h.toOrderly.forall_appendedBy (fun _ => TCPReceiver.fits_stamp) (fun _ hfits => hfits)
        fun seg hseg => hprepared seg (List.mem_append_left _ hseg)
    have hout : (c.step op).segmentsOut = c.queue op ++ c.appendedBy op := by
      rw [step_eq, Ending.apply_segmentsOut, appendedBy_eq]
      rfl
    intro seg hseg
    rw [hout] at hseg
    rcases List.mem_append.mp hseg with hm | hm
    · cases op with
      | popSegment => exact h.out seg (List.mem_of_mem_tail hm)
      | _ => exact h.out seg hm
    · exact hnew seg hm

/-! ## The inbound stream -/

end TCPConnection

namespace ReceiverMove

variable {r r' : TCPReceiver} {op : ConnectionOp}

/-- What the receiver takes of a segment, it appends to the inbound stream. -/
theorem exists_append (h : r.reassembler.WellFormed) (seg : TCPSegment) :
    ∃ new, (r.segmentReceived seg).1.streamOut.buffer = r.streamOut.buffer ++ new ∧
      (r.segmentReceived seg).1.streamOut.nwritten = r.streamOut.nwritten + new.length := by
  rw [TCPReceiver.segmentReceived_eq]
  cases r.passedOn seg with
  | none => exact ⟨[], (List.append_nil _).symm, rfl⟩
  | some absSeq =>
    exact ⟨_, h.pushSubstring_output_buffer _ _ _, h.pushSubstring_output_nwritten _ _ _⟩

/-- **A call appends to the inbound stream**, unless it reads from it. -/
theorem buffer_eq (hmove : ReceiverMove r op r') (h : r.reassembler.WellFormed)
    (hop : ∀ len, op ≠ .read len) :
    r'.streamOut.buffer = r.streamOut.buffer ++ op.written r r' := by
  induction hmove with
  | same op => rw [op.written_self, List.append_nil]
  | segment stale seg =>
    obtain ⟨new, hnew, -⟩ := exists_append h seg
    simp only [ConnectionOp.written, hnew, List.drop_left]
  | read len => exact absurd rfl (hop len)
  | error _ ih =>
    have hsame := ih hop
    unfold ConnectionOp.written at hsame ⊢
    exact hsame

/-- What a call writes to the inbound stream is counted there. -/
theorem nwritten_eq (hmove : ReceiverMove r op r') (h : r.reassembler.WellFormed) :
    r'.streamOut.nwritten = r.streamOut.nwritten + (op.written r r').length := by
  induction hmove with
  | same op => rw [op.written_self, List.length_nil, Nat.add_zero]
  | segment stale seg =>
    obtain ⟨new, hnew, hcount⟩ := exists_append h seg
    simp only [ConnectionOp.written, hnew, hcount, List.drop_left]
  | read len => rfl
  | error _ ih =>
    unfold ConnectionOp.written at ih ⊢
    exact ih

end ReceiverMove

/-! ## The invariant -/

namespace TCPConnection

variable {c : TCPConnection} {S : List UInt8}

/-- **The invariant of every connection** that transmits `S`. -/
structure Conducts (S : List UInt8) (c : TCPConnection) : Prop extends Fitting c where
  transmits : c.Transmits S
  inbound : c.receiver.reassembler.WellFormed
  error_eq : c.sender.stream.error = c.receiver.streamOut.error
  ended : c.active = false →
    c.receiver.streamOut.error = true ∨ c.receiver.streamOut.inputEnded = true

theorem conducts_new (cfg : TCPConfig) (randomIsn : WrappingInt32) (h : 1 ≤ cfg.recvCapacity) :
    (new cfg randomIsn).Conducts [] where
  toFitting := fitting_new cfg randomIsn
  transmits := transmits_new cfg randomIsn
  inbound := StreamReassembler.wellFormed_new h
  error_eq := rfl
  ended := fun hactive => by cases hactive

/-- **Why a connection is inactive**: an error, or both streams are finished. -/
theorem Conducts.concluded (h : c.Conducts S) (hactive : c.active = false) :
    c.receiver.streamOut.error = true ∨
      (c.receiver.streamOut.inputEnded = true ∧ c.sender.FullyAcked) := by
  rcases h.transmits.concluded hactive with (herr | herr) | hdone
  · exact Or.inl herr
  · exact Or.inl (h.error_eq ▸ herr)
  · exact (h.ended hactive).imp_right fun hended => ⟨hended, hdone⟩

/-- **Every call keeps the invariant**, provided nothing is written after the end of the input. -/
theorem Conducts.step (h : c.Conducts S) (op : ConnectionOp)
    (hop : ∀ data, op = .write data → c.sender.stream.inputEnded = false) :
    (c.step op).Conducts (S ++ c.acceptedBy op) where
  toFitting := h.toFitting.step op
  transmits := h.transmits.step h.toSound op hop
  inbound := (c.step_receiver op).wellFormed h.inbound
  error_eq := by rw [h.toSound.step_sender_error, step_receiver_error, h.error_eq]
  ended := by
    intro hclosed
    by_cases hactive : c.active = true
    · -- the call has closed the connection, with an error or without
      by_cases herr : (c.step op).receiver.streamOut.error = true
      · exact Or.inl herr
      · right
        rw [step_receiver_inputEnded]
        refine (step_closes hactive hclosed ?_).2.1
        rintro (herr' | herr')
        · exact herr herr'
        · rw [h.toSound.step_sender_error, h.error_eq, ← step_receiver_error] at herr'
          exact herr herr'
    · have hprogress := ((c.step_receiver op).progress h.inbound).1
      exact (h.ended (by simpa using hactive)).imp hprogress.error hprogress.inputEnded

/-- **A sender that is done stays so.** -/
theorem Sound.step_fullyAcked (h : c.Sound) (hdone : c.sender.FullyAcked) (op : ConnectionOp) :
    (c.step op).sender.FullyAcked := by
  rw [step_sender]
  exact h.bookkeeping.exec (fun _ call hb hs _ => hs.step hb call) hdone

end TCPConnection

end Sponge
