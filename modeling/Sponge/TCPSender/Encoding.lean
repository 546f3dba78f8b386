import Mathlib.Tactic
import Sponge.Foundations.Run
import Sponge.TCPSender.Bookkeeping

/-!
# The output of the sender encodes its stream

A trace is a sender together with its history: the bytes its stream has accepted, the segments that
`_send_segment` has pushed, and the acknowledgments that `ack_received` has accepted. On every trace
the segments pushed are a contiguous numbering of SYN, the bytes of the stream and FIN, whatever
acknowledgments and windows arrive.

## Main definitions

* `SenderTrace`: a sender with its history
* `SenderTrace.Encodes`: the segments sent so far encode the accepted bytes up to the buffered ones

## Main results

* `SenderTrace.Encodes.step`: every call keeps the encoding
* `sender_encodes_stream`: the output of every run, stated segment by segment
-/

namespace Sponge

/-! ## Traces -/

namespace TCPSender

/-- The bytes that a call adds to the stream. -/
def acceptedBy (s : TCPSender) : SenderOp → List UInt8
  | .write data => data.take (s.stream.write data).2
  | _ => []

/-- The segments that a call hands to `_send_segment`, which only `fill_window` calls, and
`fill_window` and `ack_received` queue no others. -/
def pushedBy (s : TCPSender) : SenderOp → List TCPSegment
  | .fillWindow => s.fillWindow.segmentsOut.drop s.segmentsOut.length
  | .ackReceived stale ackno windowSize =>
    (s.ackReceived stale ackno windowSize).segmentsOut.drop s.segmentsOut.length
  | _ => []

/-- The absolute acknowledgment number and the window that a call makes the sender accept. -/
def ackedBy (s : TCPSender) : SenderOp → List (ℕ × UInt16)
  | .ackReceived stale ackno windowSize =>
    if s.ackValid stale (unwrap ackno s.isn s.nextSeqno) then
      [(unwrap ackno s.isn s.nextSeqno, windowSize)]
    else []
  | _ => []

end TCPSender

/-- A sender with its history. -/
structure SenderTrace where
  sender : TCPSender
  /-- the bytes that `stream_in()` has accepted -/
  accepted : List UInt8
  /-- the segments pushed by `_send_segment`, oldest first -/
  sent : List TCPSegment
  /-- the accepted acknowledgments, most recent first -/
  acks : List (ℕ × UInt16)

namespace SenderTrace

/-- A fresh sender has no history. -/
def new (capacity : ℕ) (retxTimeout : UInt16) (isn : WrappingInt32) : SenderTrace where
  sender := TCPSender.new capacity retxTimeout isn
  accepted := []
  sent := []
  acks := []

/-- One call, recorded. -/
def step (t : SenderTrace) (op : SenderOp) : SenderTrace where
  sender := t.sender.step op
  accepted := t.accepted ++ t.sender.acceptedBy op
  sent := t.sent ++ t.sender.pushedBy op
  acks := t.sender.ackedBy op ++ t.acks

end SenderTrace

/-! ## One call -/

namespace TCPSender

variable {s s' : TCPSender} {new : List TCPSegment}

theorem Emits.drop_segmentsOut (h : Emits s s' new) :
    s'.segmentsOut.drop s.segmentsOut.length = new := by
  rw [h.segmentsOut_eq, List.drop_left]

theorem Bookkeeping.nextSeqno_fillWindow (h : s.Bookkeeping) :
    s.fillWindow.nextSeqno =
      s.nextSeqno + seqLength (s.fillWindow.segmentsOut.drop s.segmentsOut.length) := by
  obtain ⟨new, he⟩ := h.exists_emits
  have hdrop : s.fillWindow.segmentsOut.drop s.segmentsOut.length = new := he.drop_segmentsOut
  rw [hdrop]
  exact he.nextSeqno_eq

/-- **What a call does to the record**: it sends and accepts nothing; or it is `fill_window`; or it
is an accepted acknowledgment, which ends in `fill_window`. -/
theorem record_cases (s : TCPSender) (op : SenderOp) :
    (Keeps s (s.step op) ∧ s.pushedBy op = [] ∧ s.ackedBy op = [] ∧
        (s.step op).stream.buffer = s.stream.buffer ++ s.acceptedBy op) ∨
      s.acceptedBy op = [] ∧ ∃ mid : TCPSender, s.step op = mid.fillWindow ∧
        s.pushedBy op = mid.fillWindow.segmentsOut.drop mid.segmentsOut.length ∧
        (mid = s ∧ s.ackedBy op = [] ∨
          ∃ stale absAckno windowSize, s.ackValid stale absAckno = true ∧
            mid = s.acknowledged absAckno windowSize ∧
            s.ackedBy op = [(absAckno, windowSize)]) := by
  cases op with
  | write data =>
    exact Or.inl ⟨s.mapStreamIn_keeps fun stream => (stream.write data).1, rfl, rfl,
      s.stream.write_fst_buffer_eq data⟩
  | endInput => exact Or.inl ⟨s.mapStreamIn_keeps _, rfl, rfl, (List.append_nil _).symm⟩
  | setError => exact Or.inl ⟨s.mapStreamIn_keeps _, rfl, rfl, (List.append_nil _).symm⟩
  | sendEmptySegment =>
    exact Or.inl ⟨s.setSegmentsOut_keeps _, rfl, rfl, (List.append_nil _).symm⟩
  | popSegment => exact Or.inl ⟨s.setSegmentsOut_keeps _, rfl, rfl, (List.append_nil _).symm⟩
  | fillWindow => exact Or.inr ⟨rfl, s, rfl, rfl, Or.inl ⟨rfl, rfl⟩⟩
  | tick stale ms =>
    obtain ⟨hk, hstream⟩ := s.tick_keeps stale ms
    refine Or.inl ⟨hk, rfl, rfl, ?_⟩
    simp only [TCPSender.step, hstream, acceptedBy, List.append_nil]
  | ackReceived stale ackno windowSize =>
    cases hvalid : s.ackValid stale (unwrap ackno s.isn s.nextSeqno) with
    | false =>
      -- an acknowledgment that is not valid
      left
      simp only [pushedBy, ackedBy, TCPSender.step, ackReceived_of_invalid windowSize hvalid,
        acceptedBy, List.append_nil, List.drop_length, hvalid, Bool.false_eq_true, if_false,
        and_self, and_true]
      exact s.setSegmentsOut_keeps _
    | true =>
      refine Or.inr ⟨rfl, s.acknowledged (unwrap ackno s.isn s.nextSeqno) windowSize,
        ackReceived_of_valid windowSize hvalid, ?_, Or.inr ⟨stale, _, _, hvalid, rfl, ?_⟩⟩
      · simp only [pushedBy, ackReceived_of_valid windowSize hvalid]
        rw [acknowledged_eq]
      · simp only [ackedBy, hvalid, if_true]

end TCPSender

/-! ## The encoding -/

namespace SenderTrace

/-- **The segments sent so far encode the stream**: SYN first, then the accepted bytes that have
left the buffer, then at most one FIN, without a gap. -/
structure Encodes (isn : WrappingInt32) (t : SenderTrace) : Prop where
  isn_eq : t.sender.isn = isn
  bookkeeping : t.sender.Bookkeeping
  contiguous : Contiguous isn 0 t.sent
  nextSeqno_eq : t.sender.nextSeqno = seqLength t.sent
  payload_le : ∀ seg ∈ t.sent, seg.payload.length ≤ TCPConfig.maxPayloadSize
  accepted_eq : payloads t.sent ++ t.sender.stream.buffer = t.accepted
  unsent : t.sender.synSent = false → t.sent = []
  syn : t.sender.synSent = true →
    ∃ segs, t.sent = { header := { seqno := wrap 0 isn, syn := true } } :: segs ∧
      ∀ seg ∈ segs, seg.header.syn = false
  fin : t.sender.finSent = t.sent.any fun seg => seg.header.fin
  finLast : FinLast t.sent

theorem encodes_new (capacity : ℕ) (retxTimeout : UInt16) (isn : WrappingInt32) :
    (new capacity retxTimeout isn).Encodes isn where
  isn_eq := rfl
  bookkeeping := TCPSender.bookkeeping_new capacity retxTimeout isn
  contiguous := trivial
  nextSeqno_eq := rfl
  payload_le := by simp [new]
  accepted_eq := rfl
  unsent := fun _ => rfl
  syn := fun h => by cases h
  fin := rfl
  finLast := trivial

variable {isn : WrappingInt32} {t : SenderTrace} {s s' : TCPSender} {new : List TCPSegment}
  {acks : List (ℕ × UInt16)}

/-- New segments continue the encoding, unless FIN has been sent. -/
theorem Encodes.emits (h : t.Encodes isn) (hfin : t.sender.finSent = false)
    (he : TCPSender.Emits s s' new) (hs' : s'.Bookkeeping) (hisn : s.isn = isn)
    (hstream : s.stream = t.sender.stream) (hnext : s.nextSeqno = t.sender.nextSeqno)
    (hfin' : s.finSent = false) (hsynSent : s'.synSent = true)
    (hsyn : ∃ segs, t.sent ++ new = { header := { seqno := wrap 0 isn, syn := true } } :: segs ∧
      ∀ seg ∈ segs, seg.header.syn = false) :
    Encodes isn ⟨s', t.accepted, t.sent ++ new, acks⟩ where
  isn_eq := he.isn_eq.trans hisn
  bookkeeping := hs'
  contiguous := by
    refine contiguous_append.mpr ⟨h.contiguous, ?_⟩
    rw [Nat.zero_add, ← h.nextSeqno_eq, ← hnext, ← hisn]
    exact he.contiguous
  nextSeqno_eq := by
    rw [seqLength_append, ← h.nextSeqno_eq, ← hnext]
    exact he.nextSeqno_eq
  payload_le := fun seg hseg =>
    (List.mem_append.mp hseg).elim (h.payload_le seg) (he.payload_le seg)
  accepted_eq := by
    rw [payloads_append, List.append_assoc, ← he.buffer_eq, hstream]
    exact h.accepted_eq
  unsent := fun hf => by rw [hsynSent] at hf; cases hf
  syn := fun _ => hsyn
  fin := by rw [List.any_append, ← h.fin, hfin, he.finSent_eq, hfin']
  finLast := by
    refine finLast_append ?_ he.finLast
    have hnone := h.fin
    rw [hfin] at hnone
    simpa using hnone.symm

/-- A call that pushes nothing keeps the encoding; it may extend the stream. -/
theorem Encodes.quiet (h : t.Encodes isn) {bytes : List UInt8} (hs : s.Bookkeeping)
    (hisn : s.isn = t.sender.isn) (hnext : s.nextSeqno = t.sender.nextSeqno)
    (hsyn : s.synSent = t.sender.synSent) (hfin : s.finSent = t.sender.finSent)
    (hbuffer : s.stream.buffer = t.sender.stream.buffer ++ bytes) :
    Encodes isn ⟨s, t.accepted ++ bytes, t.sent, acks⟩ where
  isn_eq := hisn.trans h.isn_eq
  bookkeeping := hs
  contiguous := h.contiguous
  nextSeqno_eq := hnext.trans h.nextSeqno_eq
  payload_le := h.payload_le
  accepted_eq := by rw [hbuffer, ← List.append_assoc, h.accepted_eq]
  unsent := fun hf => h.unsent (hsyn ▸ hf)
  syn := fun ht => h.syn (hsyn ▸ ht)
  fin := hfin.trans h.fin
  finLast := h.finLast

/-- **Every call keeps the encoding.** -/
theorem Encodes.step (h : t.Encodes isn) (op : SenderOp) : (t.step op).Encodes isn := by
  have hstep := h.bookkeeping.step op
  unfold SenderTrace.step
  rcases t.sender.record_cases op with
    ⟨hk, hnone, -, hbuffer⟩ | ⟨hbytes, mid, heq, hpushed, hmid⟩
  · rw [hnone, List.append_nil]
    exact h.quiet hstep hk.isn_eq hk.nextSeqno_eq hk.synSent_eq hk.finSent_eq hbuffer
  · rw [heq] at hstep ⊢
    -- an acknowledgment changes nothing that the encoding mentions
    obtain ⟨hmid, hnext, hisn, hsyn, hfin, hstream⟩ : mid.Bookkeeping ∧
        mid.nextSeqno = t.sender.nextSeqno ∧ mid.isn = t.sender.isn ∧
        mid.synSent = t.sender.synSent ∧ mid.finSent = t.sender.finSent ∧
        mid.stream = t.sender.stream := by
      rcases hmid with ⟨rfl, -⟩ | ⟨_, absAckno, windowSize, -, rfl, -⟩
      · exact ⟨h.bookkeeping, rfl, rfl, rfl, rfl, rfl⟩
      · refine ⟨h.bookkeeping.acknowledged absAckno windowSize, ?_⟩
        rw [TCPSender.acknowledged_eq]
        exact ⟨rfl, rfl, rfl, rfl, rfl⟩
    rw [hpushed]
    rcases hmid.fillWindow_cases with
      ⟨hunsent, he⟩ | ⟨-, -, hidle⟩ | ⟨hsent, hidle, new, -, he, -, -, hno⟩
    · -- the SYN is the first segment of all
      rw [he.drop_segmentsOut, hbytes, List.append_nil]
      have hnil := h.unsent (hsyn ▸ hunsent)
      have hunfin := (hmid.unsent hunsent).2
      refine h.emits (hfin ▸ hunfin) he hstep (hisn.trans h.isn_eq) hstream hnext hunfin
        he.synSent_eq ⟨[], ?_, by simp⟩
      rw [hnil, hisn, h.isn_eq]
      rfl
    · -- nothing is sent
      rw [hidle] at hstep ⊢
      rw [List.drop_length, List.append_nil]
      exact h.quiet hstep hisn hnext hsyn hfin (by rw [hstream, hbytes, List.append_nil])
    · -- segments of the stream, after the SYN and before any FIN
      rw [he.drop_segmentsOut, hbytes, List.append_nil]
      have hunfin := TCPSender.finSent_of_not_idle hidle
      obtain ⟨segs, hsegs, hno'⟩ := h.syn (hsyn ▸ hsent)
      refine h.emits (hfin ▸ hunfin) he hstep (hisn.trans h.isn_eq) hstream hnext hunfin
        (he.synSent_eq.trans hsent) ⟨segs ++ new, by rw [hsegs]; rfl, ?_⟩
      intro seg hseg
      exact (List.mem_append.mp hseg).elim (hno' seg) (hno seg)

theorem encodes_exec (capacity : ℕ) (retxTimeout : UInt16) (isn : WrappingInt32)
    (ops : List SenderOp) :
    (Run.exec step (SenderTrace.new capacity retxTimeout isn) ops).Encodes isn :=
  Run.preserved (fun _ op ht => ht.step op) (encodes_new capacity retxTimeout isn) ops

/-- The segments of a trace one by one: where each starts, how long it is, and its flags. -/
theorem Encodes.segment (h : t.Encodes isn) {segs segs' : List TCPSegment} {seg : TCPSegment}
    (heq : t.sent = segs ++ seg :: segs') :
    seg.header.seqno = wrap (seqLength segs) isn ∧ 1 ≤ seg.lengthInSequenceSpace ∧
      seg.payload.length ≤ TCPConfig.maxPayloadSize ∧ (seg.header.syn = true ↔ segs = []) ∧
      (seg.header.fin = true → segs' = []) := by
  obtain ⟨-, hseqno, hlen, -⟩ := contiguous_append.mp (heq ▸ h.contiguous)
  rw [Nat.zero_add] at hseqno
  refine ⟨hseqno, hlen, h.payload_le seg (by rw [heq]; simp), ?_, (heq ▸ h.finLast).eq_nil⟩
  have hsent : t.sender.synSent = true := by
    by_contra hf
    have hnil := h.unsent (by simpa using hf)
    rw [heq] at hnil
    exact absurd hnil (by simp)
  obtain ⟨rest, hrest, hno⟩ := h.syn hsent
  rw [heq] at hrest
  -- the SYN is the first segment, and no other one
  cases segs with
  | nil =>
    obtain ⟨rfl, -⟩ := List.cons.inj hrest
    simp
  | cons seg' segs =>
    obtain ⟨-, rfl⟩ := List.cons.inj hrest
    simp [hno seg (by simp)]

end SenderTrace

/-- **The output of the sender is a faithful, contiguous encoding of its stream.** In every run the
first segment that `_send_segment` pushes is a SYN without payload at the absolute sequence number
`0`; every segment starts where the ones before it end, occupies at least one sequence number and
carries at most `MAX_PAYLOAD_SIZE` bytes; only the first has SYN, and only the last may have FIN.
The payloads followed by the bytes still in the stream are the bytes the stream accepted, and the
next sequence number is the length of all that was sent. -/
theorem sender_encodes_stream (capacity : ℕ) (retxTimeout : UInt16) (isn : WrappingInt32)
    (ops : List SenderOp) :
    let t := Run.exec SenderTrace.step (SenderTrace.new capacity retxTimeout isn) ops
    (∀ seg, t.sent.head? = some seg →
      seg = { header := { seqno := wrap 0 isn, syn := true }, payload := [] }) ∧
    (∀ segs seg segs', t.sent = segs ++ seg :: segs' →
      seg.header.seqno = wrap (seqLength segs) isn ∧ 1 ≤ seg.lengthInSequenceSpace ∧
        seg.payload.length ≤ TCPConfig.maxPayloadSize ∧ (seg.header.syn = true ↔ segs = []) ∧
        (seg.header.fin = true → segs' = [])) ∧
    payloads t.sent ++ t.sender.stream.buffer = t.accepted ∧
    t.sender.nextSeqno = seqLength t.sent := by
  intro t
  have h : t.Encodes isn := SenderTrace.encodes_exec capacity retxTimeout isn ops
  refine ⟨?_, fun _ _ _ => h.segment, h.accepted_eq, h.nextSeqno_eq⟩
  intro seg hseg
  cases hsent : t.sender.synSent with
  | false => simp [h.unsent hsent] at hseg
  | true =>
    obtain ⟨rest, hrest, -⟩ := h.syn hsent
    rw [hrest] at hseg
    exact (Option.some.inj hseg).symm

end Sponge
