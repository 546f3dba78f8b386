import Mathlib.Tactic
import Sponge.TCPSender.Encoding

/-!
# The outstanding segments

The sender does not store where its outstanding segments start: it recovers that from their 32-bit
sequence numbers. As long as fewer than `2 ^ 31` sequence numbers have been sent, the recovery is
exact, and the outstanding queue holds just the segments that end beyond the highest acknowledgment
accepted so far, as they were first sent.

## Main definitions

* `endsBeyond a start segs`: the segments, the first of which starts at `start`, that end beyond `a`
* `highestAck acks`: the highest absolute acknowledgment number of a record
* `TCPSender.Retains s sent a`: the outstanding queue is the rest of `sent` from the first segment
  on that ends beyond `a`

## Main results

* `TCPSender.Ledger.retains_acknowledged`, `TCPSender.Bookkeeping.retains_fillWindow`: the two ways
  the queue changes
* `SenderTrace.Tidy.step`: every call keeps the queue tidy
-/

namespace Sponge

/-- The segments that end beyond the absolute number `a`; the first one starts at `start`. -/
def endsBeyond (a : ℕ) : ℕ → List TCPSegment → List TCPSegment
  | _, [] => []
  | start, seg :: segs =>
    let rest := endsBeyond a (start + seg.lengthInSequenceSpace) segs
    if a < start + seg.lengthInSequenceSpace then seg :: rest else rest

theorem endsBeyond_append (a start : ℕ) (segs segs' : List TCPSegment) :
    endsBeyond a start (segs ++ segs') =
      endsBeyond a start segs ++ endsBeyond a (start + seqLength segs) segs' := by
  induction segs generalizing start with
  | nil => simp [endsBeyond]
  | cons seg segs ih =>
    simp only [List.cons_append, endsBeyond, ih, seqLength_cons, Nat.add_assoc]
    split_ifs <;> rfl

theorem endsBeyond_eq_nil {a start : ℕ} {segs : List TCPSegment} (h : start + seqLength segs ≤ a) :
    endsBeyond a start segs = [] := by
  induction segs generalizing start with
  | nil => rfl
  | cons seg segs ih =>
    rw [seqLength_cons] at h
    rw [endsBeyond, ih (by omega), if_neg (by omega)]

theorem endsBeyond_eq_self {a start : ℕ} {segs : List TCPSegment}
    (h : ∀ front ∈ segs.head?, a < start + front.lengthInSequenceSpace) :
    endsBeyond a start segs = segs := by
  induction segs generalizing start with
  | nil => rfl
  | cons seg segs ih =>
    have hfirst : a < start + seg.lengthInSequenceSpace := h seg rfl
    rw [endsBeyond, ih (fun front _ => by omega), if_pos hfirst]

/-- The highest absolute acknowledgment number of a record; `0` for an empty one. -/
def highestAck (acks : List (ℕ × UInt16)) : ℕ :=
  (acks.map Prod.fst).foldr max 0

namespace TCPSender

variable {s : TCPSender} {sent : List TCPSegment} {a : ℕ}

/-- The outstanding queue is what is left of `sent` after the segments that end at `a` or before. -/
def Retains (s : TCPSender) (sent : List TCPSegment) (a : ℕ) : Prop :=
  ∃ gone, sent = gone ++ s.segmentsOutstanding ∧ seqLength gone ≤ a ∧
    ∀ front ∈ s.segmentsOutstanding.head?, a < seqLength gone + front.lengthInSequenceSpace

theorem Retains.outstanding_eq (h : s.Retains sent a) :
    s.segmentsOutstanding = endsBeyond a 0 sent := by
  obtain ⟨gone, rfl, hgone, hfront⟩ := h
  rw [endsBeyond_append, endsBeyond_eq_nil (by omega), Nat.zero_add, endsBeyond_eq_self hfront,
    List.nil_append]

theorem Retains.suffix (h : s.Retains sent a) : s.segmentsOutstanding <:+ sent := by
  obtain ⟨gone, rfl, -⟩ := h
  exact List.suffix_append gone _

/-- Where a segment starts is recovered exactly below `2 ^ 31`. -/
theorem absSeqno_of_sent (hcont : Contiguous s.isn 0 sent) (hnext : s.nextSeqno = seqLength sent)
    (hlt : s.nextSeqno < 2 ^ 31) {gone rest : List TCPSegment} {seg : TCPSegment}
    (hsent : sent = gone ++ seg :: rest) : s.absSeqno seg = seqLength gone := by
  subst hsent
  obtain ⟨-, hseqno, -⟩ := contiguous_append.mp hcont
  rw [seqLength_append] at hnext
  rw [Nat.zero_add] at hseqno
  exact absSeqno_eq hseqno (by omega) (by omega)

/-- **An accepted acknowledgment** removes the segments that end at it or before. -/
theorem Ledger.retains_acknowledged (h : s.Ledger) (hcont : Contiguous s.isn 0 sent)
    (hnext : s.nextSeqno = seqLength sent) (hlt : s.nextSeqno < 2 ^ 31) (hr : s.Retains sent a)
    (absAckno : ℕ) (windowSize : UInt16) :
    (s.acknowledged absAckno windowSize).Retains sent (max absAckno a) := by
  obtain ⟨gone, hsent, hgone, hfront⟩ := hr
  have hsplit := s.acked_append_unacked absAckno
  have hsent' : sent = (gone ++ s.acked absAckno) ++ s.unacked absAckno := by
    rw [hsent, List.append_assoc, hsplit]
  have htotal : s.nextSeqno =
      seqLength gone + seqLength (s.acked absAckno) + seqLength (s.unacked absAckno) := by
    rw [hnext, hsent', seqLength_append, seqLength_append]
  have hout : (s.acknowledged absAckno windowSize).segmentsOutstanding = s.unacked absAckno := by
    rw [acknowledged_eq]
  -- what was removed first lay beyond the acknowledgments before
  have hbefore : s.acked absAckno ≠ [] → a < seqLength gone + seqLength (s.acked absAckno) := by
    intro hne
    obtain ⟨first, more, hacked⟩ := List.exists_cons_of_ne_nil hne
    have hhead : first ∈ s.segmentsOutstanding.head? := by
      rw [← hsplit, hacked]
      rfl
    have hfirst := hfront first hhead
    rw [hacked, seqLength_cons]
    omega
  refine ⟨gone ++ s.acked absAckno, by rw [hout, ← hsent'], ?_, ?_⟩
  · rw [seqLength_append]
    by_cases hne : s.acked absAckno = []
    · rw [hne, seqLength_nil, Nat.add_zero]
      exact hgone.trans (Nat.le_max_right _ _)
    · have hle := h.acked_le hne (Or.inl (h.bytesInFlight_le.trans_lt hlt))
      omega
  · rw [hout]
    intro front hmem
    obtain ⟨rest, hrest⟩ := List.head?_eq_some_iff.mp hmem
    have habs : s.absSeqno front = seqLength (gone ++ s.acked absAckno) :=
      absSeqno_of_sent hcont hnext hlt (hrest ▸ hsent')
    have huncovered := unacked_eq_cons hrest
    simp only [covers, habs, decide_eq_false_iff_not, Nat.not_le] at huncovered
    rw [seqLength_append] at huncovered ⊢
    by_cases hne : s.acked absAckno = []
    · have hold := hfront front (by rw [← unacked_of_acked_eq_nil hne]; exact hmem)
      rw [hne, seqLength_nil] at huncovered ⊢
      omega
    · have := hbefore hne
      omega

/-- **`fill_window`** appends what it sends. -/
theorem Bookkeeping.retains_fillWindow (h : s.Bookkeeping) (hnext : s.nextSeqno = seqLength sent)
    (ha : a ≤ s.nextSeqno) (hr : s.Retains sent a) :
    s.fillWindow.Retains (sent ++ s.fillWindow.segmentsOut.drop s.segmentsOut.length) a := by
  obtain ⟨gone, hsent, hgone, hfront⟩ := hr
  obtain ⟨new, he⟩ := h.exists_emits
  have hdrop : s.fillWindow.segmentsOut.drop s.segmentsOut.length = new := he.drop_segmentsOut
  have hout : s.fillWindow.segmentsOutstanding = s.segmentsOutstanding ++ new := he.outstanding_eq
  refine ⟨gone, by rw [hdrop, hout, hsent, List.append_assoc], hgone, ?_⟩
  rw [hout]
  intro front hmem
  cases hold : s.segmentsOutstanding with
  | cons seg segs =>
    rw [hold] at hmem hfront
    exact hfront front hmem
  | nil =>
    -- everything sent so far is acknowledged, and what is new occupies sequence numbers
    rw [hold, List.append_nil] at hsent
    rw [hold, List.nil_append] at hmem
    obtain ⟨rest, hrest⟩ := List.head?_eq_some_iff.mp hmem
    have hcont := he.contiguous
    rw [hrest] at hcont
    have hpos := hcont.2.1
    rw [hnext, hsent] at ha
    omega

end TCPSender

namespace SenderTrace

variable {isn : WrappingInt32} {t : SenderTrace}

/-- **The queue is tidy**: it retains what was sent beyond the highest acknowledgment. -/
structure Tidy (isn : WrappingInt32) (t : SenderTrace) : Prop where
  encodes : t.Encodes isn
  ack_le : highestAck t.acks ≤ t.sender.nextSeqno
  retains : t.sender.Retains t.sent (highestAck t.acks)

theorem tidy_new (capacity : ℕ) (retxTimeout : UInt16) (isn : WrappingInt32) :
    (new capacity retxTimeout isn).Tidy isn where
  encodes := encodes_new capacity retxTimeout isn
  ack_le := Nat.zero_le _
  retains := ⟨[], rfl, Nat.le_refl 0, fun _ h => by cases h⟩

theorem Encodes.nextSeqno_le_step (h : t.Encodes isn) (op : SenderOp) :
    t.sender.nextSeqno ≤ (t.step op).sender.nextSeqno := by
  have hsent : (t.step op).sent = t.sent ++ t.sender.pushedBy op := rfl
  rw [h.nextSeqno_eq, (h.step op).nextSeqno_eq, hsent, seqLength_append]
  exact Nat.le_add_right _ _

/-- **Every call keeps the queue tidy** while fewer than `2 ^ 31` sequence numbers are sent. -/
theorem Tidy.step (h : t.Tidy isn) {op : SenderOp}
    (hlt : (t.step op).sender.nextSeqno < 2 ^ 31) : (t.step op).Tidy isn := by
  have hencodes := h.encodes.step op
  have hle := h.encodes.nextSeqno_le_step op
  have hcont : Contiguous t.sender.isn 0 t.sent := by
    rw [h.encodes.isn_eq]
    exact h.encodes.contiguous
  have hnext := h.encodes.nextSeqno_eq
  refine ⟨hencodes, ?_, ?_⟩
  · change highestAck (t.sender.ackedBy op ++ t.acks) ≤ _
    rcases t.sender.record_cases op with ⟨-, -, hacks, -⟩ | ⟨-, mid, -, -, hmid⟩
    · rw [hacks]
      exact h.ack_le.trans hle
    · rcases hmid with ⟨-, hacks⟩ | ⟨stale, absAckno, windowSize, hvalid, -, hacks⟩
      · rw [hacks]
        exact h.ack_le.trans hle
      · rw [hacks]
        exact (Nat.max_le.mpr ⟨TCPSender.le_of_ackValid hvalid, h.ack_le⟩).trans hle
  · change (t.sender.step op).Retains (t.sent ++ t.sender.pushedBy op)
      (highestAck (t.sender.ackedBy op ++ t.acks))
    rcases t.sender.record_cases op with ⟨hk, hnone, hacks, -⟩ | ⟨-, mid, heq, hpushed, hmid⟩
    · rw [hnone, hacks, List.append_nil]
      unfold TCPSender.Retains
      rw [hk.outstanding_eq]
      exact h.retains
    · rw [heq, hpushed]
      rcases hmid with ⟨rfl, hacks⟩ | ⟨stale, absAckno, windowSize, hvalid, rfl, hacks⟩
      · rw [hacks]
        exact h.encodes.bookkeeping.retains_fillWindow hnext h.ack_le h.retains
      · rw [hacks]
        have hacked := h.encodes.bookkeeping.toLedger.retains_acknowledged hcont hnext
          (hle.trans_lt hlt) h.retains absAckno windowSize
        have hnextMid : (t.sender.acknowledged absAckno windowSize).nextSeqno =
            t.sender.nextSeqno := by
          rw [TCPSender.acknowledged_eq]
        refine (h.encodes.bookkeeping.acknowledged absAckno windowSize).retains_fillWindow
          (hnextMid.trans hnext) ?_ hacked
        rw [hnextMid]
        exact Nat.max_le.mpr ⟨TCPSender.le_of_ackValid hvalid, h.ack_le⟩

/-- The queue of every run is tidy up to `2 ^ 31` sequence numbers. -/
theorem tidy_exec (capacity : ℕ) (retxTimeout : UInt16) (isn : WrappingInt32) (ops : List SenderOp)
    (hlt : (Run.exec step (new capacity retxTimeout isn) ops).sender.nextSeqno < 2 ^ 31) :
    (Run.exec step (new capacity retxTimeout isn) ops).Tidy isn := by
  -- from the last call back: the bound at the end of a run is one for every state before
  induction ops using List.reverseRecOn with
  | nil => exact tidy_new capacity retxTimeout isn
  | append_singleton ops op ih =>
    rw [Run.exec_append] at hlt ⊢
    have hencodes := encodes_exec capacity retxTimeout isn ops
    exact (ih ((hencodes.nextSeqno_le_step op).trans_lt hlt)).step hlt

theorem nextSeqno_le_exec_append (capacity : ℕ) (retxTimeout : UInt16) (isn : WrappingInt32)
    (ops later : List SenderOp) :
    (Run.exec step (new capacity retxTimeout isn) ops).sender.nextSeqno ≤
      (Run.exec step (new capacity retxTimeout isn) (ops ++ later)).sender.nextSeqno := by
  induction later using List.reverseRecOn with
  | nil => rw [List.append_nil]
  | append_singleton later op ih =>
    rw [← List.append_assoc, Run.exec_append]
    exact ih.trans ((encodes_exec capacity retxTimeout isn _).nextSeqno_le_step op)

/-- **An acknowledgment that is not valid** changes nothing: one beyond what was sent, or below the
first outstanding segment. -/
theorem Tidy.ackReceived_eq (h : t.Tidy isn) (hlt : t.sender.nextSeqno < 2 ^ 31)
    {gone rest : List TCPSegment} {front : TCPSegment} (hsent : t.sent = gone ++ front :: rest)
    (hout : t.sender.segmentsOutstanding = front :: rest) (stale : TCPSegment)
    {ackno : WrappingInt32} (windowSize : UInt16)
    (hackno : t.sender.nextSeqno < unwrap ackno isn t.sender.nextSeqno ∨
      unwrap ackno isn t.sender.nextSeqno < seqLength gone) :
    t.sender.ackReceived stale ackno windowSize = t.sender := by
  have hisn := h.encodes.isn_eq
  have habs : t.sender.absSeqno front = seqLength gone :=
    TCPSender.absSeqno_of_sent (hisn ▸ h.encodes.contiguous) h.encodes.nextSeqno_eq hlt hsent
  apply TCPSender.ackReceived_of_invalid
  rw [TCPSender.ackValid, hout, List.headD_cons, habs, hisn, Bool.and_eq_false_iff,
    decide_eq_false_iff_not, decide_eq_false_iff_not]
  omega

end SenderTrace

/-- **Acknowledgments remove exactly the segments that are fully acknowledged.** In every state of a
run that sends fewer than `2 ^ 31` sequence numbers, the outstanding queue is a suffix of what was
sent: the segments that end beyond the largest absolute acknowledgment number accepted so far, each
as it was first sent. While something is outstanding, an acknowledgment beyond the next sequence
number or below the first outstanding segment leaves the sender as it is. -/
theorem outstanding_eq_endsBeyond (capacity : ℕ) (retxTimeout : UInt16) (isn : WrappingInt32)
    (ops later : List SenderOp)
    (hlt : (Run.exec SenderTrace.step (SenderTrace.new capacity retxTimeout isn)
      (ops ++ later)).sender.nextSeqno < 2 ^ 31) :
    let t := Run.exec SenderTrace.step (SenderTrace.new capacity retxTimeout isn) ops
    t.sender.segmentsOutstanding <:+ t.sent ∧
    t.sender.segmentsOutstanding = endsBeyond (highestAck t.acks) 0 t.sent ∧
    ∀ gone front rest, t.sent = gone ++ front :: rest →
      t.sender.segmentsOutstanding = front :: rest →
      ∀ stale ackno windowSize,
        (t.sender.nextSeqno < unwrap ackno isn t.sender.nextSeqno ∨
          unwrap ackno isn t.sender.nextSeqno < seqLength gone) →
        t.sender.ackReceived stale ackno windowSize = t.sender := by
  intro t
  have hlt' : t.sender.nextSeqno < 2 ^ 31 :=
    (SenderTrace.nextSeqno_le_exec_append capacity retxTimeout isn ops later).trans_lt hlt
  have htidy : t.Tidy isn := SenderTrace.tidy_exec capacity retxTimeout isn ops hlt'
  refine ⟨htidy.retains.suffix, htidy.retains.outstanding_eq, ?_⟩
  intro gone front rest hsent hout stale ackno windowSize hackno
  exact htidy.ackReceived_eq hlt' hsent hout stale windowSize hackno

/-- A segment of three bytes stays outstanding when two of them are acknowledged, and a repeated
acknowledgment of the SYN is below it. -/
theorem outstanding_eq_endsBeyond_partial :
    let t := Run.exec SenderTrace.step (SenderTrace.new 8 1000 ⟨0⟩)
      [.fillWindow, .ackReceived {} ⟨1⟩ 5, .write [1, 2, 3], .fillWindow, .ackReceived {} ⟨3⟩ 5]
    t.sender.segmentsOutstanding = endsBeyond 3 0 t.sent ∧
      t.sender.ackReceived {} ⟨0⟩ 9 = t.sender := by
  intro t
  have h := outstanding_eq_endsBeyond 8 1000 ⟨0⟩
    [.fillWindow, .ackReceived {} ⟨1⟩ 5, .write [1, 2, 3], .fillWindow, .ackReceived {} ⟨3⟩ 5]
    [] (by decide)
  refine ⟨h.2.1, ?_⟩
  exact h.2.2 [{ header := { seqno := ⟨0⟩, syn := true } }]
    { header := { seqno := ⟨1⟩ }, payload := [1, 2, 3] } [] (by decide) (by decide) {} ⟨0⟩ 9
    (by decide)

end Sponge
