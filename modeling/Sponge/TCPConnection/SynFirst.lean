import Mathlib.Tactic
import Sponge.TCPConnection.Handshake

/-!
# The SYN comes first

As long as nothing of what it has sent is acknowledged, a sender has sent nothing but its SYN and
empty segments; once something is acknowledged, the SYN is not outstanding any more. A receiver that
has taken nothing but such bare segments is as it was at the start, apart from the initial sequence
number, and acknowledges the SYN alone.

## Main definitions

* `TCPSender.Unacked`: nothing of what was sent is acknowledged
* `TCPSegment.SynAt isn seg`: if the segment has SYN, it is the bare SYN of `isn`
* `TCPSender.SynFirst`: the invariant of every run of a sender
* `TCPReceiver.Untouched`: the receiver has taken neither payload nor FIN

## Main results

* `TCPSender.SynFirst.step`: every call keeps the SYN first
* `TCPSender.Opening.unacked_ackReceived_iff`: what acknowledges the SYN
* `TCPReceiver.Untouched.segmentReceived`: a bare segment leaves a receiver untouched
* `TCPReceiver.Untouched.ackno_eq`: what an untouched receiver acknowledges
-/

namespace Sponge

/-- If the segment has SYN, it is the bare SYN of the initial sequence number `isn`. -/
def TCPSegment.SynAt (isn : WrappingInt32) (seg : TCPSegment) : Prop :=
  seg.header.syn = true → seg.Bare ∧ seg.header.seqno = wrap 0 isn

theorem TCPSegment.synAt_of_syn_eq_false {isn : WrappingInt32} {seg : TCPSegment}
    (h : seg.header.syn = false) : seg.SynAt isn := by
  intro hsyn
  rw [h] at hsyn
  cases hsyn

theorem TCPReceiver.synAt_stamp {r : TCPReceiver} {isn : WrappingInt32} {seg : TCPSegment}
    (h : seg.SynAt isn) : (r.stamp seg).SynAt isn := by
  unfold stamp
  cases r.ackno <;> exact h

/-! ## The sender -/

namespace TCPSender

variable {s s' : TCPSender}

/-- Nothing of what was sent is acknowledged. -/
def Unacked (s : TCPSender) : Prop :=
  s.bytesInFlight = s.nextSeqno

instance (s : TCPSender) : Decidable s.Unacked :=
  inferInstanceAs (Decidable (_ = _))

theorem Keeps.unacked_iff (h : Keeps s s') : s'.Unacked ↔ s.Unacked := by
  unfold Unacked
  rw [h.bytesInFlight_eq, h.nextSeqno_eq]

theorem Bookkeeping.synSent_of_acked (h : s.Bookkeeping) (hacked : ¬ s.Unacked) :
    s.synSent = true := by
  by_contra hsyn
  have hnext := (h.unsent (by simpa using hsyn)).1
  have hle := h.bytesInFlight_le
  refine hacked ?_
  unfold Unacked
  omega

/-- With the SYN sent, something is outstanding as long as nothing is acknowledged. -/
theorem Bookkeeping.outstanding_of_unacked (h : s.Bookkeeping) (hsyn : s.synSent = true)
    (hun : s.Unacked) : s.segmentsOutstanding ≠ [] := by
  intro hnil
  have hzero := h.bytesInFlight_eq_zero_iff.mpr hnil
  have hpos := h.started hsyn
  unfold Unacked at hun
  omega

theorem Bookkeeping.unacked_fillWindow_iff (h : s.Bookkeeping) :
    s.fillWindow.Unacked ↔ s.Unacked := by
  obtain ⟨new, he⟩ := h.exists_emits
  unfold Unacked
  rw [he.bytesInFlight_eq, he.nextSeqno_eq]
  exact Nat.add_right_cancel_iff

/-- An acknowledgment that covers nothing leaves everything unacknowledged. -/
theorem Unacked.acknowledged (hun : s.Unacked) {a : ℕ} (hnil : s.acked a = []) (w : UInt16) :
    (s.acknowledged a w).Unacked := by
  unfold Unacked at hun ⊢
  rw [acknowledged_eq]
  dsimp only
  rw [hnil, seqLength_nil, Nat.sub_zero, hun]

theorem Bookkeeping.unacked_of_acknowledged (h : s.Bookkeeping) {a : ℕ} {w : UInt16}
    (hun : (s.acknowledged a w).Unacked) : s.Unacked := by
  have hle := h.bytesInFlight_le
  unfold Unacked at hun ⊢
  rw [acknowledged_eq] at hun
  dsimp only at hun
  omega

/-- **An acknowledgment is not taken back.** -/
theorem Bookkeeping.unacked_of_step (h : s.Bookkeeping) {op : SenderOp}
    (hun : (s.step op).Unacked) : s.Unacked := by
  cases op with
  | fillWindow => exact h.unacked_fillWindow_iff.mp hun
  | ackReceived stale ackno w =>
    simp only [TCPSender.step] at hun
    rcases s.ackReceived_cases stale ackno w with heq | ⟨-, heq⟩
    · rwa [heq] at hun
    · rw [heq, (h.acknowledged _ w).unacked_fillWindow_iff] at hun
      exact h.unacked_of_acknowledged hun
  | tick stale ms => exact (s.tick_keeps stale ms).1.unacked_iff.mp hun
  | _ => exact hun

/-- Only `ack_received` acknowledges. -/
theorem Bookkeeping.unacked_step_iff (h : s.Bookkeeping) {op : SenderOp}
    (hop : ∀ stale ackno w, op ≠ .ackReceived stale ackno w) :
    (s.step op).Unacked ↔ s.Unacked := by
  cases op with
  | ackReceived stale ackno w => exact absurd rfl (hop stale ackno w)
  | fillWindow => exact h.unacked_fillWindow_iff
  | tick stale ms => exact (s.tick_keeps stale ms).1.unacked_iff
  | _ => exact Iff.rfl

/-- **What acknowledges the SYN**: a segment whose absolute acknowledgment number is `1`. -/
theorem Opening.unacked_ackReceived_iff (h : s.Opening) (hb : s.Bookkeeping)
    (hsyn : s.synSent = true) (hun : s.Unacked) {stale : TCPSegment} {ackno : WrappingInt32}
    {w : UInt16} :
    (s.ackReceived stale ackno w).Unacked ↔ unwrap ackno s.isn s.nextSeqno ≠ 1 := by
  have hout := hb.outstanding_of_unacked hsyn hun
  have hnext := h.nextSeqno_eq hb hsyn
  constructor
  · intro hun' habs
    obtain ⟨-, hvalid, hnil⟩ := h.acked_syn hb hout stale habs
    rw [ackReceived_of_valid w hvalid, habs, (hb.acknowledged 1 w).unacked_fillWindow_iff] at hun'
    have hmid : (s.acknowledged 1 w).bytesInFlight = 0 :=
      (hb.acknowledged 1 w).bytesInFlight_eq_zero_iff.mpr (by rw [acknowledged_eq]; exact hnil)
    have hnext' : (s.acknowledged 1 w).nextSeqno = 1 := by
      rw [acknowledged_eq]
      exact hnext
    rw [Unacked, hmid, hnext'] at hun'
    cases hun'
  · intro habs
    rcases s.ackReceived_cases stale ackno w with heq | ⟨hvalid, heq⟩
    · rw [heq]
      exact hun
    · rw [heq, (hb.acknowledged _ w).unacked_fillWindow_iff]
      generalize unwrap ackno s.isn s.nextSeqno = a at habs hvalid ⊢
      -- the SYN alone is outstanding, and it is not covered
      have hle := le_of_ackValid hvalid
      have hsplit := acked_or_unacked_eq_nil (h.outstanding.resolve_left hout) a
      refine hun.acknowledged (hsplit.resolve_right fun hnil => ?_) w
      have hcovered := hb.nextSeqno_le hout hnil
      omega

/-- What `fill_window` sends is the SYN, or it has no SYN. -/
theorem Bookkeeping.fillWindow_synAt (h : s.Bookkeeping) :
    ∃ new, s.fillWindow.segmentsOut = s.segmentsOut ++ new ∧
      s.fillWindow.segmentsOutstanding = s.segmentsOutstanding ++ new ∧
      s.fillWindow.isn = s.isn ∧ (∀ seg ∈ new, seg.SynAt s.isn) ∧
      (s.synSent = true → ∀ seg ∈ new, seg.header.syn = false) := by
  rcases h.fillWindow_cases with
    ⟨hunsent, he⟩ | ⟨-, -, heq⟩ | ⟨-, -, new, -, he, -, -, hnosyn⟩
  · refine ⟨_, he.segmentsOut_eq, he.outstanding_eq, he.isn_eq, fun seg hseg _ => ?_,
      fun hsyn => ?_⟩
    · rw [List.mem_singleton.mp hseg]
      exact ⟨⟨rfl, rfl⟩, rfl⟩
    · rw [hunsent] at hsyn
      cases hsyn
  · rw [heq]
    exact ⟨[], by simp⟩
  · exact ⟨new, he.segmentsOut_eq, he.outstanding_eq, he.isn_eq,
      fun seg hseg => TCPSegment.synAt_of_syn_eq_false (hnosyn seg hseg), fun _ => hnosyn⟩

/-- **The SYN comes first**: until it is acknowledged nothing else is sent, and after that it is not
outstanding. -/
structure SynFirst (s : TCPSender) : Prop where
  opening : s.Unacked → s.Opening
  acked : ¬ s.Unacked → ∀ seg ∈ s.segmentsOutstanding, seg.header.syn = false
  syn : ∀ seg ∈ s.segmentsOut ++ s.segmentsOutstanding, seg.SynAt s.isn

theorem synFirst_new (capacity : ℕ) (retxTimeout : UInt16) (isn : WrappingInt32) :
    (TCPSender.new capacity retxTimeout isn).SynFirst where
  opening := fun _ => ⟨by simp [TCPSender.new], rfl, Nat.zero_le _, Or.inl rfl⟩
  acked := by simp [TCPSender.new]
  syn := by simp [TCPSender.new]

theorem SynFirst.fillWindow (h : s.SynFirst) (hb : s.Bookkeeping) : s.fillWindow.SynFirst where
  opening := by
    intro hun
    rw [hb.unacked_fillWindow_iff] at hun
    refine (h.opening hun).fillWindow hb fun hsyn hnil => ?_
    exact absurd hnil (hb.outstanding_of_unacked hsyn hun)
  acked := by
    rw [hb.unacked_fillWindow_iff]
    intro hacked seg hseg
    obtain ⟨new, -, hout, -, -, hnosyn⟩ := hb.fillWindow_synAt
    rw [hout] at hseg
    exact (List.mem_append.mp hseg).elim (h.acked hacked seg)
      (hnosyn (hb.synSent_of_acked hacked) seg)
  syn := by
    obtain ⟨new, hqueue, hout, hisn, hsyn, -⟩ := hb.fillWindow_synAt
    rw [hqueue, hout, hisn]
    intro seg hseg
    simp only [List.mem_append] at hseg
    rcases hseg with (hm | hm) | (hm | hm)
    · exact h.syn seg (List.mem_append_left _ hm)
    · exact hsyn seg hm
    · exact h.syn seg (List.mem_append_right _ hm)
    · exact hsyn seg hm

theorem SynFirst.acknowledged (h : s.SynFirst) (hb : s.Bookkeeping) (a : ℕ) (w : UInt16) :
    (s.acknowledged a w).SynFirst := by
  refine ⟨fun hun => (h.opening (hb.unacked_of_acknowledged hun)).acknowledged a w, ?_, ?_⟩
  · intro hacked
    by_cases hun : s.Unacked
    · -- the SYN was outstanding alone, and has left the queue
      have hnil : s.unacked a = [] := by
        rcases (h.opening hun).outstanding with hnone | hsyn
        · rw [unacked, hnone, List.dropWhile_nil]
        · refine (acked_or_unacked_eq_nil hsyn a).resolve_left fun hnone => ?_
          exact hacked (hun.acknowledged hnone w)
      rw [acknowledged_eq]
      dsimp only
      rw [hnil]
      simp
    · rw [acknowledged_eq]
      exact fun seg hseg => h.acked hun seg (mem_of_mem_unacked hseg)
  · rw [acknowledged_eq]
    intro seg hseg
    rcases List.mem_append.mp hseg with hm | hm
    · exact h.syn seg (List.mem_append_left _ hm)
    · exact h.syn seg (List.mem_append_right _ (mem_of_mem_unacked hm))

theorem SynFirst.ackReceived (h : s.SynFirst) (hb : s.Bookkeeping) (stale : TCPSegment)
    (ackno : WrappingInt32) (w : UInt16) : (s.ackReceived stale ackno w).SynFirst := by
  rcases s.ackReceived_cases stale ackno w with heq | ⟨-, heq⟩
  · rw [heq]
    exact h
  · rw [heq]
    exact (h.acknowledged hb _ w).fillWindow (hb.acknowledged _ w)

/-- Calls that send nothing new: what they queue was queued before, or is an empty segment. -/
theorem SynFirst.keeps (h : s.SynFirst) (hk : Keeps s s')
    (hout : ∀ seg ∈ s'.segmentsOut, seg ∈ s.segmentsOut ++ s.segmentsOutstanding ∨
      (seg.Bare ∧ seg.header.syn = false)) : s'.SynFirst where
  opening := by
    rw [hk.unacked_iff]
    intro hun
    have ho := h.opening hun
    refine ho.keeps hk fun seg hseg => ?_
    rcases hout seg hseg with hm | ⟨hbare, -⟩
    · rcases List.mem_append.mp hm with hm | hm
      · exact ho.bare seg hm
      · rcases ho.outstanding with hnil | hsyn
        · rw [hnil] at hm
          cases hm
        · rw [hsyn] at hm
          rw [List.mem_singleton.mp hm]
          exact ⟨rfl, rfl⟩
    · exact hbare
  acked := by
    rw [hk.unacked_iff, hk.outstanding_eq]
    exact h.acked
  syn := by
    rw [hk.isn_eq, hk.outstanding_eq]
    intro seg hseg
    rcases List.mem_append.mp hseg with hm | hm
    · rcases hout seg hm with hm | ⟨-, hsyn⟩
      · exact h.syn seg hm
      · exact TCPSegment.synAt_of_syn_eq_false hsyn
    · exact h.syn seg (List.mem_append_right _ hm)

/-- **Every call keeps the SYN first.** -/
theorem SynFirst.step (h : s.SynFirst) (hb : s.Bookkeeping) (op : SenderOp) :
    (s.step op).SynFirst := by
  have hsame : ∀ seg ∈ s.segmentsOut, seg ∈ s.segmentsOut ++ s.segmentsOutstanding ∨
      (seg.Bare ∧ seg.header.syn = false) := fun seg hseg => Or.inl (List.mem_append_left _ hseg)
  cases op with
  | write data => exact h.keeps (s.mapStreamIn_keeps fun stream => (stream.write data).1) hsame
  | endInput => exact h.keeps (s.mapStreamIn_keeps _) hsame
  | setError => exact h.keeps (s.mapStreamIn_keeps _) hsame
  | fillWindow => exact h.fillWindow hb
  | ackReceived stale ackno w => exact h.ackReceived hb stale ackno w
  | tick stale ms =>
    refine h.keeps (s.tick_keeps stale ms).1 fun seg hseg => Or.inl ?_
    exact List.mem_append.mpr (hb.mem_tick_segmentsOut hseg)
  | sendEmptySegment =>
    refine h.keeps (s.setSegmentsOut_keeps _) fun seg hseg => ?_
    rcases List.mem_append.mp hseg with hm | hm
    · exact hsame seg hm
    · rw [List.mem_singleton.mp hm]
      exact Or.inr ⟨⟨rfl, rfl⟩, rfl⟩
  | popSegment =>
    exact h.keeps (s.setSegmentsOut_keeps _) fun seg hseg => hsame seg (List.mem_of_mem_tail hseg)

/-- Once the acknowledgment of the SYN has arrived, the SYN is not outstanding. -/
theorem SynFirst.synOutstanding_eq_false (h : s.SynFirst) (hacked : ¬ s.Unacked) :
    s.synOutstanding = false := by
  unfold synOutstanding
  cases hhead : s.segmentsOutstanding.head? with
  | none => rfl
  | some seg => exact h.acked hacked seg (List.mem_of_mem_head? hhead)

end TCPSender

/-! ## The receiver -/

/-- The receiver has taken neither payload nor FIN: the ring is empty, no end is recorded, and
nothing was written to the inbound stream. -/
structure TCPReceiver.Untouched (r : TCPReceiver) : Prop where
  flags : ∀ i, RingBuffer.get r.reassembler.capacity r.reassembler.bitMap i false = false
  eofIndex_eq : r.reassembler.eofIndex = none
  finAbsSeq_eq : r.finAbsSeq = 0
  nwritten_eq : r.streamOut.nwritten = 0
  inputEnded_eq : r.streamOut.inputEnded = false

/-- Pushing nothing into an empty ring does nothing. -/
theorem StreamReassembler.pushSubstring_nil {r : StreamReassembler}
    (hflags : ∀ i, RingBuffer.get r.capacity r.bitMap i false = false) (heof : r.eofIndex = none)
    (index : ℕ) : r.pushSubstring [] index false = r := by
  have hstore : r.store [] index = r := by
    have hempty : min (r.rpos + r.capacity) index - max r.rpos index = 0 := by omega
    simp [store, hempty]
  have hsubmit : r.submit = r := by
    have havail : r.availLoop r.capacity r.rpos = r.rpos := by
      cases r.capacity with
      | zero => rfl
      | succ n => simp [availLoop, hflags]
    simp [submit, havail]
  rw [pushSubstring, hstore, hsubmit]
  cases r with
  | mk => simp_all [finish]

namespace TCPReceiver

variable {r : TCPReceiver} {seg : TCPSegment}

theorem untouched_new (capacity : ℕ) : (new capacity).Untouched where
  flags := by
    intro i
    by_cases h : i % capacity < capacity <;>
      simp [new, StreamReassembler.new, RingBuffer.get, List.getD_eq_getElem?_getD, h]
  eofIndex_eq := rfl
  finAbsSeq_eq := rfl
  nwritten_eq := rfl
  inputEnded_eq := rfl

/-- **A bare segment leaves a receiver untouched.** -/
theorem Untouched.segmentReceived (h : r.Untouched) (hbare : seg.Bare) :
    (r.segmentReceived seg).1.Untouched := by
  rcases r.segmentReceived_cases seg with ⟨-, hr⟩ | ⟨isn, -, ⟨-, hr⟩ | ⟨-, hr⟩⟩
  · rw [hr]
    exact h
  · rw [hr]
    exact ⟨h.flags, h.eofIndex_eq, h.finAbsSeq_eq, h.nwritten_eq, h.inputEnded_eq⟩
  · rw [hr]
    have hpush := fun index =>
      StreamReassembler.pushSubstring_nil (r := r.reassembler) h.flags h.eofIndex_eq index
    simp only [accept, hbare.1, hbare.2, Bool.and_false, Bool.false_eq_true, if_false,
      h.finAbsSeq_eq, List.length_nil, Nat.add_zero]
    exact ⟨by simpa [hpush] using h.flags, by simpa [hpush] using h.eofIndex_eq, rfl,
      by simpa [streamOut, hpush] using h.nwritten_eq,
      by simpa [streamOut, hpush] using h.inputEnded_eq⟩

/-- An operation on the inbound stream that writes and ends nothing. -/
theorem Untouched.mapStreamOut (h : r.Untouched) {f : ByteStream → ByteStream}
    (hwritten : (f r.streamOut).nwritten = r.streamOut.nwritten)
    (hended : (f r.streamOut).inputEnded = r.streamOut.inputEnded) :
    (r.mapStreamOut f).Untouched :=
  ⟨h.flags, h.eofIndex_eq, h.finAbsSeq_eq, hwritten.trans h.nwritten_eq,
    hended.trans h.inputEnded_eq⟩

/-- **An untouched receiver acknowledges the SYN alone.** -/
theorem Untouched.ackno_eq (h : r.Untouched) {isn : WrappingInt32} (hisn : r.isn = some isn) :
    r.ackno = some (wrap 1 isn) := by
  have habs : r.absAckno = 1 := by
    simp [absAckno, ByteStream.bytesWritten, h.nwritten_eq, h.finAbsSeq_eq]
  rw [ackno, hisn, Option.map_some, habs]

end TCPReceiver

end Sponge
