import Mathlib.Tactic
import Sponge.TCPConnection.Bounds

/-!
# Acknowledgments of a connection

`segment_received` hands the acknowledgment number and the window of every segment to the sender,
also of a segment without the ACK flag, and it answers a segment that occupies sequence numbers
explicitly only if the outbound stream is empty. Both are stated exactly: when a segment without the
ACK flag leaves the sender alone, and when a segment is answered.

## Main definitions

* `TCPSender.ackState`: what only acknowledgments and the timer change in a sender
* `TCPSender.IgnoresAck`: an acknowledgment number and a window that leave the `ackState` alone
* `TCPSender.permits`: the window and the outstanding segments allow `fill_window` to send
* `TCPConnection.AnswersSegment`: the call returns, and it appends a segment with the current
  acknowledgment

## Main results

* `unflagged_segment_ignored_iff`: when a segment without the ACK flag acknowledges nothing
* `unflagged_segment_acknowledges_syn`: a duplicate SYN that acknowledges the own SYN
* `segment_answered_iff`: when a segment that occupies sequence numbers is answered
* `segment_unanswered_full_window`: a data segment that is not
-/

namespace Sponge

/-! ## What an acknowledgment changes -/

/-- The outstanding segments, the bytes in flight, the window of the peer, and the retransmission
timer. -/
structure AckState where
  segmentsOutstanding : List TCPSegment
  bytesInFlight : ℕ
  receiverWindowSize : UInt16
  consecutiveRetransmissions : UInt16
  timerRunning : Bool
  timeElapsed : UInt32
  rto : UInt32
  deriving DecidableEq, Repr

namespace TCPSender

variable {s : TCPSender} {stale : TCPSegment} {a : ℕ} {w : UInt16}

/-- What only acknowledgments and the timer change in a sender. -/
def ackState (s : TCPSender) : AckState where
  segmentsOutstanding := s.segmentsOutstanding
  bytesInFlight := s.bytesInFlight
  receiverWindowSize := s.receiverWindowSize
  consecutiveRetransmissions := s.consecutiveRetransmissions
  timerRunning := s.timerRunning
  timeElapsed := s.timeElapsed
  rto := s.rto

/-- `fill_window` may send with the outstanding segments `segs`, the free space `free` and the
window `w`: SYN is acknowledged, FIN has not been sent, and there is room in an open window or none
in a closed one. -/
def permits (s : TCPSender) (segs : List TCPSegment) (free w : UInt16) : Bool :=
  !(segs.head?.any fun seg => seg.header.syn) && !s.finSent &&
    (if w ≠ 0 then free != 0 else free == 0)

/-- There is nothing to send: no bytes, and the stream has not ended. -/
def nothingToSend (s : TCPSender) : Bool :=
  s.stream.bufferSize == 0 && !s.stream.eof

theorem idle_eq (s : TCPSender) :
    s.idle =
      (s.nothingToSend ||
        !s.permits s.segmentsOutstanding s.receiverFreeSpace s.receiverWindowSize) := by
  unfold idle permits nothingToSend synOutstanding
  split_ifs <;> cases s.finSent <;> cases (s.stream.bufferSize == 0 && !s.stream.eof) <;>
    cases (s.segmentsOutstanding.head?.any fun seg => seg.header.syn) <;> simp [bne]

theorem idle_acknowledged (s : TCPSender) (a : ℕ) (w : UInt16) :
    (s.acknowledged a w).idle =
      (s.nothingToSend || !s.permits (s.unacked a) (s.newFreeSpace a w) w) := by
  rw [idle_eq, acknowledged_eq]
  rfl

/-- **The acknowledgment `a` with the window `w` changes nothing**: it is not valid; or the window
is the one recorded, no outstanding segment is covered, and with the oldest one still outstanding
there is nothing to send or no leave to send it. -/
def IgnoresAck (s : TCPSender) (stale : TCPSegment) (a : ℕ) (w : UInt16) : Prop :=
  s.ackValid stale a = false ∨
    (w = s.receiverWindowSize ∧ ∀ front ∈ s.segmentsOutstanding.head?,
      s.covers a front = false ∧
        (s.nothingToSend = true ∨ s.permits [front] (s.freeSpace front a w) w = false))

instance (s : TCPSender) (stale : TCPSegment) (a : ℕ) (w : UInt16) :
    Decidable (s.IgnoresAck stale a w) :=
  inferInstanceAs (Decidable (_ ∨ _))

/-! ## Acknowledgments that cover nothing -/

/-- An acknowledgment that covers nothing changes only the window and the free space. -/
theorem Ledger.acknowledged_of_acked_eq_nil (h : s.Ledger) (hnil : s.acked a = []) :
    s.acknowledged a w =
      { s with receiverWindowSize := w, receiverFreeSpace := s.newFreeSpace a w } := by
  have htimer : (s.timerRunning && s.bytesInFlight != 0) = s.timerRunning := by
    cases hrunning : s.timerRunning with
    | false => rfl
    | true =>
      have hne := h.outstanding_ne_nil hrunning
      simpa using fun h0 => hne (h.bytesInFlight_eq_zero_iff.mp h0)
  rw [acknowledged_eq, hnil, unacked_of_acked_eq_nil hnil]
  simp [htimer]

/-- A queue that is not empty determines the number it starts at, modulo `2 ^ 32`. -/
theorem Ledger.start_modEq {s' : TCPSender} (h : s.Ledger) (h' : s'.Ledger)
    (hisn : s'.isn = s.isn) (hout : s'.segmentsOutstanding = s.segmentsOutstanding)
    (hne : s.segmentsOutstanding ≠ []) :
    s.nextSeqno - s.bytesInFlight ≡ s'.nextSeqno - s'.bytesInFlight [MOD 2 ^ 32] := by
  obtain ⟨front, segs, hfront⟩ := List.exists_cons_of_ne_nil hne
  have hold := h.contiguous
  have hnew := h'.contiguous
  rw [hisn, hout, hfront] at hnew
  rw [hfront] at hold
  exact wrap_eq_wrap_iff.mp (hold.1.symm.trans hnew.1)

/-- An acknowledgment that covers something shows: if as many sequence numbers were sent at once,
the queue starts at another one. -/
theorem Bookkeeping.ackState_ne_of_acked (h : s.Bookkeeping) (hsyn : s.synSent = true)
    (hne : s.acked a ≠ []) : (s.acknowledged a w).fillWindow.ackState ≠ s.ackState := by
  intro heq
  obtain ⟨hlen, hacked, -⟩ := h.split a
  have hpos := hacked.seqLength_pos hne
  have hle := h.bytesInFlight_le
  have hm := h.acknowledged a w
  have hmeq := s.acknowledged_eq a w
  have hbif : (s.acknowledged a w).fillWindow.bytesInFlight = s.bytesInFlight :=
    congrArg AckState.bytesInFlight heq
  have hout : (s.acknowledged a w).fillWindow.segmentsOutstanding = s.segmentsOutstanding :=
    congrArg AckState.segmentsOutstanding heq
  have hmbif : (s.acknowledged a w).bytesInFlight = s.bytesInFlight - seqLength (s.acked a) := by
    rw [hmeq]
  rcases hm.fillWindow_cases with
    ⟨hunsent, -⟩ | ⟨-, -, hidle⟩ | ⟨-, -, new, -, he, hopen, hclosed, -⟩
  · rw [hmeq] at hunsent
    exact absurd hunsent (by simp [hsyn])
  · rw [hidle] at hbif
    omega
  · -- the same queue would start at two numbers less than `2 ^ 16` apart
    have hsent : seqLength new = seqLength (s.acked a) := by
      have := he.bytesInFlight_eq
      omega
    have hshort : seqLength new < 2 ^ 16 := by
      by_cases hw : (s.acknowledged a w).receiverWindowSize = 0
      · have := (hclosed hw).1
        omega
      · have := hopen hw
        have := (s.acknowledged a w).receiverFreeSpace.toNat_lt
        omega
    have hnext : (s.acknowledged a w).nextSeqno = s.nextSeqno := by rw [hmeq]
    have hisn : (s.acknowledged a w).isn = s.isn := by rw [hmeq]
    have hfull : s.segmentsOutstanding ≠ [] := by
      intro hnil
      have := h.bytesInFlight_eq_zero_iff.mpr hnil
      omega
    have hstart := h.start_modEq (hm.toLedger.emits he) (he.isn_eq.trans hisn) hout hfull
    rw [hbif, he.nextSeqno_eq, hnext, Nat.ModEq] at hstart
    omega

theorem newFreeSpace_of_acked_eq_nil (hnil : s.acked a = []) {front : TCPSegment}
    {segs : List TCPSegment} (hout : s.segmentsOutstanding = front :: segs) :
    s.newFreeSpace a w = s.freeSpace front a w := by
  unfold newFreeSpace
  rw [unacked_of_acked_eq_nil hnil, hout, hnil]
  rfl

/-- After an acknowledgment that covers nothing, `fill_window` is idle exactly if there is nothing
to send or no leave to send it; with an empty queue a settled sender always is. -/
theorem Settled.idle_iff (h : s.Settled) (hnil : s.acked a = []) :
    TCPSender.idle { s with receiverWindowSize := w, receiverFreeSpace := s.newFreeSpace a w } =
        true ↔
      ∀ front ∈ s.segmentsOutstanding.head?,
        s.nothingToSend = true ∨ s.permits [front] (s.freeSpace front a w) w = false := by
  rw [idle_eq, Bool.or_eq_true, Bool.not_eq_true']
  change s.nothingToSend = true ∨ s.permits s.segmentsOutstanding (s.newFreeSpace a w) w = false ↔ _
  cases hout : s.segmentsOutstanding with
  | nil =>
    -- a settled sender with an empty queue has nothing to send
    refine iff_of_true ?_ (by simp)
    rcases h hout with hfin | ⟨hsize, hopen⟩
    · exact Or.inr (by simp [permits, hfin])
    · exact Or.inl (by simp [nothingToSend, ByteStream.bufferSize, ByteStream.eof, hsize, hopen])
  | cons front segs =>
    rw [newFreeSpace_of_acked_eq_nil hnil hout]
    simp [permits]

/-- **When an acknowledgment changes nothing.** -/
theorem Settled.ackReceived_ackState_iff (hsettled : s.Settled) (h : s.Bookkeeping)
    (hsyn : s.synSent = true) (stale : TCPSegment) (ackno : WrappingInt32) (w : UInt16) :
    (s.ackReceived stale ackno w).ackState = s.ackState ↔
      s.IgnoresAck stale (unwrap ackno s.isn s.nextSeqno) w := by
  unfold IgnoresAck
  generalize ha : unwrap ackno s.isn s.nextSeqno = a
  cases hvalid : s.ackValid stale a with
  | false =>
    rw [ackReceived_of_invalid w (ha ▸ hvalid)]
    simp
  | true =>
    rw [ackReceived_of_valid w (ha ▸ hvalid), ha]
    by_cases hnil : s.acked a = []
    · have hcov := acked_eq_nil_iff.mp hnil
      have hmid := h.acknowledged_of_acked_eq_nil (w := w) hnil
      have hm := h.acknowledged a w
      have hidle := hsettled.idle_iff (w := w) hnil
      rw [hmid] at hm ⊢
      by_cases hi : TCPSender.idle { s with
          receiverWindowSize := w, receiverFreeSpace := s.newFreeSpace a w } = true
      · -- nothing is sent: only the window may have changed
        have hsame := fillWindow_of_idle (s := { s with
          receiverWindowSize := w, receiverFreeSpace := s.newFreeSpace a w }) hsyn hi
        rw [hsame]
        constructor
        · intro heq
          exact Or.inr ⟨congrArg AckState.receiverWindowSize heq,
            fun front hmem => ⟨hcov front hmem, hidle.mp hi front hmem⟩⟩
        · rintro (hf | ⟨rfl, -⟩)
          · cases hf
          · rfl
      · -- something is sent, and the outstanding queue has grown
        refine iff_of_false ?_ ?_
        · obtain ⟨new, hne, he, -⟩ := fillWindow_emits hm.wellFormed hsyn (by simpa using hi)
          intro heq
          have hout := congrArg AckState.segmentsOutstanding heq
          change TCPSender.segmentsOutstanding _ = s.segmentsOutstanding at hout
          rw [he.outstanding_eq] at hout
          exact hne (by simpa using hout)
        · rintro (hf | ⟨-, hfront⟩)
          · cases hf
          · exact hi (hidle.mpr fun front hmem => (hfront front hmem).2)
    · -- something is covered, and that shows
      refine iff_of_false (h.ackState_ne_of_acked hsyn hnil) ?_
      rintro (hf | ⟨-, hfront⟩)
      · cases hf
      · exact hnil (acked_eq_nil_iff.mpr fun front hmem => (hfront front hmem).1)

end TCPSender

/-! ## Segments without the ACK flag -/

namespace TCPConnection

variable {c : TCPConnection}

/-- The rest of the exchange leaves the acknowledgment state alone. -/
theorem exchange_ackState (c : TCPConnection) (stale seg : TCPSegment) :
    (c.exchange stale seg).sender.ackState =
      (c.sender.ackReceived stale seg.header.ackno seg.header.win).ackState := by
  unfold exchange
  dsimp only
  split_ifs <;> simp <;> rfl

end TCPConnection

namespace TCPConnection

variable {c : TCPConnection}

/-- **A segment is answered**: the call appends a segment with the ACK flag and the acknowledgment
number of the receiver. -/
def Answers (c c' : TCPConnection) : Prop :=
  ∃ new, c'.segmentsOut = c.segmentsOut ++ new ∧
    ∃ seg ∈ new, seg.header.ack = true ∧ c'.receiver.ackno = some seg.header.ackno

/-- **The call returns and answers the segment.** -/
def AnswersSegment (c : TCPConnection) (stale seg : TCPSegment) : Prop :=
  ∃ c', c.segmentReceivedChecked stale seg = .ok c' ∧ c.Answers c'

/-- A call answers if nothing goes wrong in the receiver and the plain call answers. -/
theorem answersSegment_iff {capacity : ℕ} (stale : TCPSegment) {seg : TCPSegment}
    (hguarded : c.receiver.Guarded capacity) (hpath : c.path seg = .exchanged) :
    c.AnswersSegment stale seg ↔
      c.receiver.InBounds (.segmentReceived seg) ∧ c.Answers (c.segmentReceived stale seg) := by
  constructor
  · rintro ⟨c', hc', hanswers⟩
    have hin : c.InBounds (.segmentReceived stale seg) := by
      rw [InBounds, hc']
      rfl
    have hreceiver := hin.receiver (Or.inr (Or.inr hpath))
    rw [segmentReceivedChecked_of_ok (hguarded.segmentReceivedChecked_eq hreceiver)] at hc'
    cases hc'
    exact ⟨hreceiver, hanswers⟩
  · rintro ⟨hreceiver, hanswers⟩
    exact ⟨_, segmentReceivedChecked_of_ok (hguarded.segmentReceivedChecked_eq hreceiver), hanswers⟩

theorem stamp_ack {r : TCPReceiver} {ackno : WrappingInt32} (h : r.ackno = some ackno)
    (seg : TCPSegment) :
    (r.stamp seg).header.ack = true ∧ r.ackno = some (r.stamp seg).header.ackno := by
  simp [TCPReceiver.stamp, h]

/-- Sending answers exactly if the sender has a segment. -/
theorem answers_sendSenderSegments (c₀ : TCPConnection) (hout : c.segmentsOut = c₀.segmentsOut)
    {ackno : WrappingInt32} (hackno : c.receiver.ackno = some ackno) :
    Answers c₀ c.sendSenderSegments ↔ c.sender.segmentsOut ≠ [] := by
  unfold Answers
  rw [sendSenderSegments_segmentsOut, sendSenderSegments_receiver, hout]
  constructor
  · rintro ⟨new, heq, seg, hmem, -⟩ hnil
    rw [List.append_cancel_left_eq] at heq
    rw [← heq, hnil] at hmem
    cases hmem
  · intro hne
    obtain ⟨seg, segs, heq⟩ := List.exists_cons_of_ne_nil hne
    refine ⟨_, rfl, c.receiver.stamp seg, ?_, stamp_ack hackno seg⟩
    rw [heq]
    exact List.mem_cons_self

/-- An exchange answers exactly if the sender, after the acknowledgment, has a segment to send or no
bytes left in its stream. -/
theorem answers_exchange_iff (stale : TCPSegment) {seg : TCPSegment} (hrst : seg.header.rst = false)
    (hlen : 0 < seg.lengthInSequenceSpace) {isn : WrappingInt32}
    (hisn : c.receiver.isn = some isn) :
    Answers c (c.exchange stale seg) ↔
      (c.sender.ackReceived stale seg.header.ackno seg.header.win).segmentsOut ≠ [] ∨
        (c.sender.ackReceived stale seg.header.ackno seg.header.win).stream.size = 0 := by
  have hackno : (c.absorb stale seg).receiver.ackno =
      some (wrap (c.absorb stale seg).receiver.absAckno isn) := by
    change Option.map _ (c.receiver.segmentReceived seg).1.isn = _
    rw [TCPReceiver.segmentReceived_isn, TCPReceiver.learnIsn_of_isSome hisn]
    rfl
  unfold exchange
  dsimp only
  rw [hrst, if_neg Bool.false_ne_true]
  split_ifs with hempty
  · -- the explicit answer
    rw [answers_sendSenderSegments (c := (c.absorb stale seg).mapSender _) c rfl hackno]
    have hsize : (c.absorb stale seg).sender.stream.size = 0 := by
      simp only [ByteStream.bufferEmpty, Bool.and_eq_true, beq_iff_eq] at hempty
      exact hempty.1
    refine iff_of_true ?_ (Or.inr hsize)
    simp [TCPSender.sendEmptySegment]
  · -- only what `fill_window` may have sent
    rw [answers_sendSenderSegments (c := c.absorb stale seg) c rfl hackno]
    have hsize : (c.absorb stale seg).sender.stream.size ≠ 0 := by
      intro h0
      refine hempty ?_
      simp only [ByteStream.bufferEmpty, h0, Bool.and_eq_true, beq_self_eq_true, bne_iff_ne,
        true_and]
      omega
    exact (or_iff_left hsize).symm

end TCPConnection

/-- What the sender has to send after an acknowledgment: what it had, or new segments if the
acknowledgment is valid and permits it, or no bytes at all. -/
theorem TCPSender.Bookkeeping.answer_iff {s : TCPSender} (h : s.Bookkeeping)
    (hsyn : s.synSent = true) (stale : TCPSegment) (ackno : WrappingInt32) (w : UInt16) :
    let a := unwrap ackno s.isn s.nextSeqno
    (s.ackReceived stale ackno w).segmentsOut ≠ [] ∨
        (s.ackReceived stale ackno w).stream.size = 0 ↔
      s.segmentsOut ≠ [] ∨ s.stream.bufferSize = 0 ∨
        (s.ackValid stale a = true ∧
          s.permits (s.unacked a) (s.newFreeSpace a w) w = true) := by
  intro a
  cases hvalid : s.ackValid stale a with
  | false =>
    rw [ackReceived_of_invalid w hvalid]
    simp [ByteStream.bufferSize]
  | true =>
    rw [ackReceived_of_valid w hvalid]
    have hm := h.acknowledged a w
    have hidle := s.idle_acknowledged a w
    have hstream : (s.acknowledged a w).stream = s.stream := by rw [acknowledged_eq]
    have hout : (s.acknowledged a w).segmentsOut = s.segmentsOut := by rw [acknowledged_eq]
    have hsyn' : (s.acknowledged a w).synSent = true := by rw [acknowledged_eq]; exact hsyn
    cases hi : (s.acknowledged a w).idle with
    | true =>
      -- nothing is added to the queue of the sender
      rw [fillWindow_of_idle hsyn' hi, hstream, hout]
      by_cases hsize : s.stream.size = 0
      · simp [ByteStream.bufferSize, hsize]
      · have hno : s.permits (s.unacked a) (s.newFreeSpace a w) w = false := by
          rw [hi] at hidle
          simpa [nothingToSend, ByteStream.bufferSize, hsize] using hidle
        simp [ByteStream.bufferSize, hsize, hno]
    | false =>
      obtain ⟨new, hne, he, -⟩ := fillWindow_emits hm.wellFormed hsyn' hi
      have hyes : s.permits (s.unacked a) (s.newFreeSpace a w) w = true := by
        rw [hi] at hidle
        simp only [Bool.false_eq, Bool.or_eq_false_iff, Bool.not_eq_false'] at hidle
        exact hidle.2
      refine iff_of_true (Or.inl ?_) (Or.inr (Or.inr ⟨rfl, hyes⟩))
      rw [he.segmentsOut_eq]
      exact fun hnil => hne (List.append_eq_nil_iff.mp hnil).2

/-- **When a segment that occupies sequence numbers is answered.** In every state that is reached
without a fault, is active and knows its acknowledgment number, a segment without RST that occupies
sequence numbers is answered exactly if it does not make a receiver without capacity divide by zero,
and the sender had a segment waiting, or its stream has no bytes buffered, or the acknowledgment on
the segment is valid and permits it to send. -/
theorem segment_answered_iff (cfg : TCPConfig) (randomIsn : WrappingInt32)
    (ops : List ConnectionOp) (stale seg : TCPSegment) (hrst : seg.header.rst = false)
    (hlen : 0 < seg.lengthInSequenceSpace) :
    let c := Run.exec TCPConnection.step (TCPConnection.new cfg randomIsn) ops
    let a := unwrap seg.header.ackno c.sender.isn c.sender.nextSeqno
    Run.Always TCPConnection.step TCPConnection.InBounds (TCPConnection.new cfg randomIsn) ops →
      c.active = true → c.receiver.ackno.isSome = true →
      (c.AnswersSegment stale seg ↔
        (cfg.recvCapacity = 0 → c.receiver.NoStraddling (.segmentReceived seg)) ∧
          (c.sender.segmentsOut ≠ [] ∨ c.sender.stream.bufferSize = 0 ∨
            (c.sender.ackValid stale a = true ∧
              c.sender.permits (c.sender.unacked a) (c.sender.newFreeSpace a seg.header.win)
                seg.header.win = true))) := by
  intro c a hin hactive hackno
  have hc : c.Sound := TCPConnection.sound_run cfg randomIsn ops
  have hguarded : c.receiver.Guarded cfg.recvCapacity := TCPConnection.guarded_run hin
  rw [TCPReceiver.ackno_isSome_iff] at hackno
  obtain ⟨isn, hisn⟩ := Option.isSome_iff_exists.mp hackno
  have hpath : c.path seg = .exchanged := TCPConnection.path_of_isn hactive hackno
  rw [← hguarded.inBounds_iff, TCPConnection.answersSegment_iff stale hguarded hpath]
  refine and_congr_right fun _ => ?_
  rw [TCPConnection.segmentReceived_path, hpath]
  have hanswer := TCPConnection.answers_exchange_iff (c := c.heard) stale hrst hlen hisn
  exact hanswer.trans
    (hc.bookkeeping.answer_iff (hc.synSent_of_isn hackno) stale seg.header.ackno seg.header.win)

/-- A byte that arrives at an endpoint with nothing to send is answered. -/
theorem segment_answered_iff_idle_sender :
    let c := Run.exec TCPConnection.step
      (TCPConnection.new { recvCapacity := 4, sendCapacity := 4 } ⟨0⟩)
      [.connect,
        .segmentReceived {} { header := { syn := true, ack := true, ackno := ⟨1⟩, win := 1 } }]
    c.active = true ∧ c.receiver.ackno.isSome = true ∧
      c.AnswersSegment {}
        { header := { seqno := ⟨1⟩, ack := true, ackno := ⟨1⟩, win := 1 }, payload := [7] } := by
  intro c
  have hactive : c.active = true := by decide
  have hackno : c.receiver.ackno.isSome = true := by decide
  exact ⟨hactive, hackno,
    (segment_answered_iff _ _ _ {} _ rfl (by decide) (by decide) hactive hackno).mpr
      ⟨by decide, Or.inr (Or.inl (by decide))⟩⟩

/-- **A byte that is not answered.** The peer offers a window of one, the application writes three
bytes and one of them is sent. While the other two wait for the window, a byte of the peer arrives
and is stored, but no segment goes back: the stream is not empty, and `fill_window` may not send. -/
theorem segment_unanswered_full_window :
    let c := Run.exec TCPConnection.step
      (TCPConnection.new { recvCapacity := 4, sendCapacity := 4 } ⟨0⟩)
      [.connect,
        .segmentReceived {} { header := { syn := true, ack := true, ackno := ⟨1⟩, win := 1 } },
        .write [1, 2, 3]]
    let seg : TCPSegment :=
      { header := { seqno := ⟨1⟩, ack := true, ackno := ⟨1⟩, win := 1 }, payload := [7] }
    c.active = true ∧ c.receiver.ackno.isSome = true ∧ seg.header.rst = false ∧
      0 < seg.lengthInSequenceSpace ∧
      c.segmentReceivedChecked {} seg = .ok (c.segmentReceived {} seg) ∧
      ¬ c.Answers (c.segmentReceived {} seg) := by
  intro c seg
  refine ⟨by decide, by decide, rfl, by decide, by decide, ?_⟩
  rintro ⟨new, heq, seg', hmem, -⟩
  have hsame : (c.segmentReceived {} seg).segmentsOut = c.segmentsOut := by decide
  rw [hsame, List.self_eq_append_right] at heq
  rw [heq] at hmem
  cases hmem

end Sponge
