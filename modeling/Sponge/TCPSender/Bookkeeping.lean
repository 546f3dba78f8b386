import Mathlib.Tactic
import Mathlib.Data.List.TakeWhile
import Sponge.Foundations.Run
import Sponge.TCPSender.Emission

/-!
# The bookkeeping of the sender

The outstanding queue is the tail of what has been sent: its segments are contiguous and end at the
next sequence number, the bytes in flight are their length, and the timer runs exactly while there
are any. `Bookkeeping` says so together with what is known before and after the SYN; every operation
preserves it, whatever acknowledgments arrive and whatever an empty queue yields.

## Main definitions

* `TCPSender.Ledger`: the counters describe the outstanding queue
* `TCPSender.Bookkeeping`: the ledger, the start of the stream, and the free space of an idle queue
* `TCPSender.Keeps`: what the calls that send nothing new have in common

## Main results

* `TCPSender.acknowledged_eq`, `TCPSender.Bookkeeping.fillWindow_cases`, `TCPSender.tick_cases`:
  what an accepted acknowledgment, `fill_window` and `tick` change
* `TCPSender.Bookkeeping.step`: every call keeps the bookkeeping
* `sender_bookkeeping`: what it says in every state of a run
-/

namespace Sponge

namespace TCPSender

variable {s s' : TCPSender} {new : List TCPSegment}

/-! ## Accepted acknowledgments -/

section Acknowledged

/-- The outstanding segments that an acknowledgment covers. -/
def acked (s : TCPSender) (absAckno : ℕ) : List TCPSegment :=
  s.segmentsOutstanding.takeWhile (s.covers absAckno)

/-- The outstanding segments from the first one on that an acknowledgment does not cover. -/
def unacked (s : TCPSender) (absAckno : ℕ) : List TCPSegment :=
  s.segmentsOutstanding.dropWhile (s.covers absAckno)

theorem acked_append_unacked (s : TCPSender) (absAckno : ℕ) :
    s.acked absAckno ++ s.unacked absAckno = s.segmentsOutstanding :=
  List.takeWhile_append_dropWhile

theorem mem_of_mem_unacked {absAckno : ℕ} {seg : TCPSegment} (h : seg ∈ s.unacked absAckno) :
    seg ∈ s.segmentsOutstanding := by
  rw [← s.acked_append_unacked absAckno]
  exact List.mem_append_right _ h

/-- A single outstanding segment is acknowledged, or it is not. -/
theorem acked_or_unacked_eq_nil {seg : TCPSegment} (h : s.segmentsOutstanding = [seg])
    (absAckno : ℕ) : s.acked absAckno = [] ∨ s.unacked absAckno = [] := by
  have hsplit := s.acked_append_unacked absAckno
  rw [h, List.append_eq_singleton_iff] at hsplit
  exact hsplit.imp And.left And.right

theorem unacked_eq_cons {absAckno : ℕ} {front : TCPSegment} {segs : List TCPSegment}
    (h : s.unacked absAckno = front :: segs) : s.covers absAckno front = false := by
  have hne : s.segmentsOutstanding.dropWhile (s.covers absAckno) ≠ [] := by
    change s.unacked absAckno ≠ []
    simp [h]
  have hhead := List.head_dropWhile_not (s.covers absAckno) hne
  have heq : s.segmentsOutstanding.dropWhile (s.covers absAckno) = front :: segs := h
  simpa [heq] using hhead

theorem acked_eq_nil_iff {a : ℕ} :
    s.acked a = [] ↔ ∀ front ∈ s.segmentsOutstanding.head?, s.covers a front = false := by
  unfold acked
  cases s.segmentsOutstanding with
  | nil => simp
  | cons front segs => cases hc : s.covers a front <;> simp [hc]

theorem unacked_of_acked_eq_nil {a : ℕ} (hnil : s.acked a = []) :
    s.unacked a = s.segmentsOutstanding := by
  rw [← s.acked_append_unacked a, hnil, List.nil_append]

/-- The loop over the outstanding queue as one update. -/
theorem popAcked_eq (absAckno : ℕ) (segs : List TCPSegment) (h : s.segmentsOutstanding = segs) :
    popAcked absAckno segs s =
      { s with
        bytesInFlight := s.bytesInFlight - seqLength (segs.takeWhile (s.covers absAckno))
        segmentsOutstanding := segs.dropWhile (s.covers absAckno)
        timeElapsed := if (segs.takeWhile (s.covers absAckno)).isEmpty then s.timeElapsed else 0
        rto := if (segs.takeWhile (s.covers absAckno)).isEmpty then s.rto
          else s.initialRetransmissionTimeout
        consecutiveRetransmissions :=
          if (segs.takeWhile (s.covers absAckno)).isEmpty then s.consecutiveRetransmissions
          else 0 } := by
  -- induction on the queue; each round is an update of the state that the next one starts from
  induction segs generalizing s with
  | nil =>
    cases s
    cases h
    simp [popAcked]
  | cons seg segs ih =>
    unfold popAcked
    cases hc : s.covers absAckno seg with
    | false =>
      cases s
      cases h
      simp [hc]
    | true =>
      rw [if_pos rfl, ih rfl]
      -- the covering test reads only fields that the loop leaves alone
      change ({ s with
        bytesInFlight := s.bytesInFlight - seg.lengthInSequenceSpace -
          seqLength (segs.takeWhile (s.covers absAckno))
        segmentsOutstanding := segs.dropWhile (s.covers absAckno)
        timeElapsed := if (segs.takeWhile (s.covers absAckno)).isEmpty then 0 else 0
        rto := if (segs.takeWhile (s.covers absAckno)).isEmpty then s.initialRetransmissionTimeout
          else s.initialRetransmissionTimeout
        consecutiveRetransmissions :=
          if (segs.takeWhile (s.covers absAckno)).isEmpty then 0 else 0 } : TCPSender) = _
      simp [hc, Nat.sub_sub]

/-- The free space after an accepted acknowledgment. -/
def newFreeSpace (s : TCPSender) (absAckno : ℕ) (windowSize : UInt16) : UInt16 :=
  match s.unacked absAckno with
  | [] => windowSize
  | front :: _ =>
    { s with bytesInFlight := s.bytesInFlight - seqLength (s.acked absAckno) }.freeSpace front
      absAckno windowSize

/-- **What an accepted acknowledgment changes** before `fill_window` is called. -/
theorem acknowledged_eq (s : TCPSender) (absAckno : ℕ) (windowSize : UInt16) :
    s.acknowledged absAckno windowSize =
      { s with
        receiverWindowSize := windowSize
        receiverFreeSpace := s.newFreeSpace absAckno windowSize
        bytesInFlight := s.bytesInFlight - seqLength (s.acked absAckno)
        segmentsOutstanding := s.unacked absAckno
        timeElapsed := if (s.acked absAckno).isEmpty then s.timeElapsed else 0
        rto := if (s.acked absAckno).isEmpty then s.rto else s.initialRetransmissionTimeout
        consecutiveRetransmissions :=
          if (s.acked absAckno).isEmpty then s.consecutiveRetransmissions else 0
        timerRunning :=
          s.timerRunning && s.bytesInFlight - seqLength (s.acked absAckno) != 0 } := by
  have hpop := popAcked_eq
    (s := { s with receiverWindowSize := windowSize, receiverFreeSpace := windowSize }) absAckno
    s.segmentsOutstanding rfl
  unfold acknowledged
  dsimp only
  rw [hpop]
  rfl

theorem le_of_ackValid {stale : TCPSegment} {absAckno : ℕ}
    (h : s.ackValid stale absAckno = true) : absAckno ≤ s.nextSeqno := by
  simp only [ackValid, Bool.and_eq_true, decide_eq_true_eq] at h
  exact h.1

theorem ackReceived_of_invalid {stale : TCPSegment} {ackno : WrappingInt32} (windowSize : UInt16)
    (h : s.ackValid stale (unwrap ackno s.isn s.nextSeqno) = false) :
    s.ackReceived stale ackno windowSize = s := by
  simp [ackReceived, h]

theorem ackReceived_of_valid {stale : TCPSegment} {ackno : WrappingInt32} (windowSize : UInt16)
    (h : s.ackValid stale (unwrap ackno s.isn s.nextSeqno) = true) :
    s.ackReceived stale ackno windowSize =
      (s.acknowledged (unwrap ackno s.isn s.nextSeqno) windowSize).fillWindow := by
  simp [ackReceived, h]

/-- **What `ack_received` does**: nothing if the acknowledgment is not valid, and otherwise it ends
in `fill_window`. -/
theorem ackReceived_cases (s : TCPSender) (stale : TCPSegment) (ackno : WrappingInt32)
    (windowSize : UInt16) :
    s.ackReceived stale ackno windowSize = s ∨
      (s.ackValid stale (unwrap ackno s.isn s.nextSeqno) = true ∧
        s.ackReceived stale ackno windowSize =
          (s.acknowledged (unwrap ackno s.isn s.nextSeqno) windowSize).fillWindow) := by
  cases hvalid : s.ackValid stale (unwrap ackno s.isn s.nextSeqno) with
  | false => exact Or.inl (ackReceived_of_invalid windowSize hvalid)
  | true => exact Or.inr ⟨rfl, ackReceived_of_valid windowSize hvalid⟩

end Acknowledged

/-! ## The ledger -/

/-- **The counters describe the outstanding queue.** -/
structure Ledger (s : TCPSender) : Prop where
  wellFormed : s.stream.WellFormed
  bytesInFlight_eq : s.bytesInFlight = seqLength s.segmentsOutstanding
  bytesInFlight_le : s.bytesInFlight ≤ s.nextSeqno
  contiguous : Contiguous s.isn (s.nextSeqno - s.bytesInFlight) s.segmentsOutstanding
  payload_le : ∀ seg ∈ s.segmentsOutstanding, seg.payload.length ≤ TCPConfig.maxPayloadSize
  timer : s.timerRunning = !s.segmentsOutstanding.isEmpty

theorem Ledger.emits (h : s.Ledger) (he : Emits s s' new) : s'.Ledger where
  wellFormed := he.wellFormed
  bytesInFlight_eq := by
    rw [he.bytesInFlight_eq, he.outstanding_eq, seqLength_append, h.bytesInFlight_eq]
  bytesInFlight_le := by
    have := h.bytesInFlight_le
    rw [he.bytesInFlight_eq, he.nextSeqno_eq]
    omega
  contiguous := by
    have hle := h.bytesInFlight_le
    rw [he.isn_eq, he.outstanding_eq, he.nextSeqno_eq, he.bytesInFlight_eq,
      Nat.add_sub_add_right, contiguous_append, ← h.bytesInFlight_eq, Nat.sub_add_cancel hle]
    exact ⟨h.contiguous, he.contiguous⟩
  payload_le := by
    rw [he.outstanding_eq]
    intro seg hseg
    exact (List.mem_append.mp hseg).elim (h.payload_le seg) (he.payload_le seg)
  timer := by
    rw [he.timerRunning_eq, he.outstanding_eq, h.timer]
    cases s.segmentsOutstanding <;> cases new <;> rfl

theorem Ledger.bytesInFlight_eq_zero_iff (h : s.Ledger) :
    s.bytesInFlight = 0 ↔ s.segmentsOutstanding = [] := by
  rw [h.bytesInFlight_eq]
  exact h.contiguous.seqLength_eq_zero_iff

theorem Ledger.outstanding_ne_nil (h : s.Ledger) (hrunning : s.timerRunning = true) :
    s.segmentsOutstanding ≠ [] := by
  simpa [h.timer] using hrunning

/-- The outstanding segments before and after the first one that is not covered. -/
theorem Ledger.split (h : s.Ledger) (absAckno : ℕ) :
    s.bytesInFlight = seqLength (s.acked absAckno) + seqLength (s.unacked absAckno) ∧
      Contiguous s.isn (s.nextSeqno - s.bytesInFlight) (s.acked absAckno) ∧
      Contiguous s.isn (s.nextSeqno - seqLength (s.unacked absAckno)) (s.unacked absAckno) := by
  have hsplit := s.acked_append_unacked absAckno
  have hlen : s.bytesInFlight =
      seqLength (s.acked absAckno) + seqLength (s.unacked absAckno) := by
    rw [h.bytesInFlight_eq, ← seqLength_append, hsplit]
  have hle := h.bytesInFlight_le
  obtain ⟨hacked, hunacked⟩ := contiguous_append.mp (hsplit ▸ h.contiguous)
  refine ⟨hlen, hacked, ?_⟩
  have hstart : s.nextSeqno - s.bytesInFlight + seqLength (s.acked absAckno) =
      s.nextSeqno - seqLength (s.unacked absAckno) := by omega
  rwa [hstart] at hunacked

theorem Ledger.acknowledged (h : s.Ledger) (absAckno : ℕ) (windowSize : UInt16) :
    (s.acknowledged absAckno windowSize).Ledger := by
  obtain ⟨hlen, -, hcont⟩ := h.split absAckno
  have hle := h.bytesInFlight_le
  have hbif : s.bytesInFlight - seqLength (s.acked absAckno) =
      seqLength (s.unacked absAckno) := by omega
  rw [acknowledged_eq, hbif]
  refine ⟨h.wellFormed, rfl, ?_, hcont, ?_, ?_⟩
  · change seqLength (s.unacked absAckno) ≤ s.nextSeqno
    omega
  · exact fun seg hseg => h.payload_le seg (mem_of_mem_unacked hseg)
  · -- the timer stops exactly if the queue has become empty
    change (s.timerRunning && seqLength (s.unacked absAckno) != 0) =
      !(s.unacked absAckno).isEmpty
    have hzero := hcont.seqLength_eq_zero_iff
    cases hu : s.unacked absAckno with
    | nil => simp
    | cons front segs =>
      -- something was outstanding, so the timer was running
      have hne : s.segmentsOutstanding ≠ [] := by
        rw [← s.acked_append_unacked absAckno, hu]
        simp
      have hpos : seqLength (front :: segs) ≠ 0 := by
        rw [← hu, ne_eq, hzero, hu]
        exact List.cons_ne_nil front segs
      have hrunning : s.timerRunning = true := by simpa [h.timer] using hne
      rw [hrunning, Bool.true_and, bne_iff_ne.mpr hpos]
      rfl

/-! ## Recovered sequence numbers -/

/-- The sequence number of a segment is recovered exactly while it is less than `2 ^ 31` behind. -/
theorem absSeqno_eq {seg : TCPSegment} {a : ℕ} (hseqno : seg.header.seqno = wrap a s.isn)
    (hle : a ≤ s.nextSeqno) (hnear : s.nextSeqno < a + 2 ^ 31) : s.absSeqno seg = a := by
  unfold absSeqno
  rw [hseqno]
  exact unwrap_wrap s.isn hnear (by omega)

theorem Ledger.length_le (h : s.Ledger) {seg : TCPSegment} (hseg : seg ∈ s.segmentsOutstanding) :
    seg.lengthInSequenceSpace ≤ 1002 := by
  have hle := h.payload_le seg hseg
  unfold TCPConfig.maxPayloadSize at hle
  unfold TCPSegment.lengthInSequenceSpace
  split_ifs <;> omega

/-- The segments that leave the outstanding queue lie below the acknowledgment: the last of them is
recovered exactly, since it is less than `2 ^ 31` behind. -/
theorem Ledger.acked_le (h : s.Ledger) {absAckno : ℕ} (hne : s.acked absAckno ≠ [])
    (hnear : s.bytesInFlight < 2 ^ 31 ∨ s.unacked absAckno = []) :
    s.nextSeqno - seqLength (s.unacked absAckno) ≤ absAckno := by
  obtain ⟨segs, last, hacked⟩ := List.eq_nil_or_concat (s.acked absAckno) |>.resolve_left hne
  rw [List.concat_eq_append] at hacked
  have hmem : last ∈ s.acked absAckno := by rw [hacked]; simp
  have hlen := h.length_le (List.takeWhile_subset _ hmem)
  obtain ⟨hbif, hcont, -⟩ := h.split absAckno
  rw [hacked, seqLength_append, seqLength_cons, seqLength_nil] at hbif
  obtain ⟨-, hseqno, -⟩ := contiguous_append.mp (hacked ▸ hcont)
  have hle := h.bytesInFlight_le
  -- little lies between the start of the last segment and the next sequence number
  have hshort : last.lengthInSequenceSpace + seqLength (s.unacked absAckno) < 2 ^ 31 := by
    rcases hnear with hnear | hnil
    · omega
    · rw [hnil, seqLength_nil]
      omega
  have habs : s.absSeqno last = s.nextSeqno - s.bytesInFlight + seqLength segs :=
    absSeqno_eq hseqno (by omega) (by omega)
  -- the covering test was made on the recovered number
  have hcovers : s.covers absAckno last = true := List.mem_takeWhile_imp hmem
  have hcov : s.absSeqno last + last.lengthInSequenceSpace ≤ absAckno := by
    simpa [covers] using hcovers
  omega

/-- An acknowledgment that empties the outstanding queue acknowledges everything, whatever is in
flight. -/
theorem Ledger.nextSeqno_le (h : s.Ledger) {absAckno : ℕ} (hne : s.segmentsOutstanding ≠ [])
    (hnil : s.unacked absAckno = []) : s.nextSeqno ≤ absAckno := by
  have hacked : s.acked absAckno ≠ [] := by
    rwa [← s.acked_append_unacked absAckno, hnil, List.append_nil] at hne
  have hle := h.acked_le hacked (Or.inr hnil)
  rwa [hnil, seqLength_nil, Nat.sub_zero] at hle

/-! ## Bookkeeping -/

/-- **The bookkeeping of the sender**: the ledger, nothing is sent before the SYN, and with nothing
outstanding the whole window is free. -/
structure Bookkeeping (s : TCPSender) : Prop extends Ledger s where
  unsent : s.synSent = false → s.nextSeqno = 0 ∧ s.finSent = false
  started : s.synSent = true → 0 < s.nextSeqno
  free : s.segmentsOutstanding = [] → s.receiverFreeSpace = s.receiverWindowSize

theorem bookkeeping_new (capacity : ℕ) (retxTimeout : UInt16) (isn : WrappingInt32) :
    (TCPSender.new capacity retxTimeout isn).Bookkeeping where
  wellFormed := ByteStream.wellFormed_new capacity
  bytesInFlight_eq := rfl
  bytesInFlight_le := Nat.le_refl 0
  contiguous := trivial
  payload_le := fun seg hseg => absurd hseg List.not_mem_nil
  timer := rfl
  unsent := fun _ => ⟨rfl, rfl⟩
  started := fun h => by cases h
  free := fun _ => rfl

/-- Nothing is outstanding before the SYN. -/
theorem Bookkeeping.outstanding_of_unsent (h : s.Bookkeeping) (hsyn : s.synSent = false) :
    s.segmentsOutstanding = [] := by
  have h0 := (h.unsent hsyn).1
  have hle := h.bytesInFlight_le
  exact h.bytesInFlight_eq_zero_iff.mp (by omega)

theorem Bookkeeping.acknowledged (h : s.Bookkeeping) (absAckno : ℕ) (windowSize : UInt16) :
    (s.acknowledged absAckno windowSize).Bookkeeping := by
  refine ⟨h.toLedger.acknowledged absAckno windowSize, ?_, ?_, ?_⟩
  · rw [acknowledged_eq]
    exact h.unsent
  · rw [acknowledged_eq]
    exact h.started
  · rw [acknowledged_eq]
    intro hnil
    simp only at hnil
    simp only [newFreeSpace, hnil]

/-- **What `fill_window` does**: it sends the SYN, or nothing because the sender is idle, or
segments of the stream within the free space. -/
theorem Bookkeeping.fillWindow_cases (h : s.Bookkeeping) :
    (s.synSent = false ∧ Emits { s with synSent := true } s.fillWindow
        [{ header := { seqno := wrap 0 s.isn, syn := true } }]) ∨
      (s.synSent = true ∧ s.idle = true ∧ s.fillWindow = s) ∨
      (s.synSent = true ∧ s.idle = false ∧ ∃ new, new ≠ [] ∧ Emits s s.fillWindow new ∧
        (s.receiverWindowSize ≠ 0 → seqLength new ≤ s.receiverFreeSpace.toNat) ∧
        (s.receiverWindowSize = 0 → seqLength new = 1 ∧ s.receiverFreeSpace = 0) ∧
        ∀ seg ∈ new, seg.header.syn = false) := by
  cases hsyn : s.synSent with
  | false =>
    -- nothing was sent before the SYN, so it gets number `0`
    have hemits := fillWindow_syn h.wellFormed hsyn
    have hseqno : wrap s.nextSeqno s.isn = wrap 0 s.isn := by rw [(h.unsent hsyn).1]
    rw [hseqno] at hemits
    exact Or.inl ⟨rfl, hemits⟩
  | true =>
    cases hidle : s.idle with
    | true => exact Or.inr (Or.inl ⟨rfl, rfl, fillWindow_of_idle hsyn hidle⟩)
    | false => exact Or.inr (Or.inr ⟨rfl, rfl, fillWindow_emits h.wellFormed hsyn hidle⟩)

theorem Bookkeeping.emits (h : s.Bookkeeping) (hsyn : s.synSent = true) (hne : new ≠ [])
    (he : Emits s s' new) : s'.Bookkeeping := by
  refine ⟨h.toLedger.emits he, ?_, ?_, ?_⟩
  · rw [he.synSent_eq, hsyn]
    exact fun hf => by cases hf
  · intro _
    rw [he.nextSeqno_eq]
    exact Nat.lt_of_lt_of_le (h.started hsyn) (Nat.le_add_right _ _)
  · rw [he.outstanding_eq]
    intro hnil
    exact absurd (List.append_eq_nil_iff.mp hnil).2 hne

theorem Bookkeeping.fillWindow (h : s.Bookkeeping) : s.fillWindow.Bookkeeping := by
  rcases h.fillWindow_cases with ⟨hsyn, he⟩ | ⟨-, -, heq⟩ | ⟨hsyn, -, new, hne, he, -⟩
  · -- the ledger does not mention the flag that the SYN sets
    have hledger : Ledger { s with synSent := true } :=
      ⟨h.wellFormed, h.bytesInFlight_eq, h.bytesInFlight_le, h.contiguous, h.payload_le, h.timer⟩
    refine ⟨hledger.emits he, ?_, ?_, ?_⟩
    · rw [he.synSent_eq]
      exact fun hf => by cases hf
    · intro _
      rw [he.nextSeqno_eq]
      simp [TCPSegment.lengthInSequenceSpace]
    · rw [he.outstanding_eq]
      simp
  · rw [heq]
    exact h
  · exact h.emits hsyn hne he

/-- In any case `fill_window` is an emission of some segments, with the SYN flag set. -/
theorem Bookkeeping.exists_emits (h : s.Bookkeeping) :
    ∃ new, Emits { s with synSent := true } s.fillWindow new := by
  have hset : s.synSent = true → { s with synSent := true } = s := fun hsyn => by rw [← hsyn]
  rcases h.fillWindow_cases with ⟨-, he⟩ | ⟨hsyn, -, heq⟩ | ⟨hsyn, -, new, -, he, -⟩
  · exact ⟨_, he⟩
  · rw [heq, hset hsyn]
    exact ⟨[], Emits.refl h.wellFormed⟩
  · rw [hset hsyn]
    exact ⟨new, he⟩

theorem Bookkeeping.synSent_fillWindow (h : s.Bookkeeping) : s.fillWindow.synSent = true := by
  obtain ⟨new, he⟩ := h.exists_emits
  exact he.synSent_eq

/-- If nothing is outstanding after `fill_window`, it was idle. -/
theorem Bookkeeping.idle_of_outstanding_eq_nil (h : s.Bookkeeping)
    (hnil : s.fillWindow.segmentsOutstanding = []) : s.idle = true ∧ s.fillWindow = s := by
  rcases h.fillWindow_cases with ⟨-, he⟩ | ⟨-, hidle, heq⟩ | ⟨-, -, new, hne, he, -⟩
  · rw [he.outstanding_eq] at hnil
    simp at hnil
  · exact ⟨hidle, heq⟩
  · rw [he.outstanding_eq] at hnil
    exact absurd (List.append_eq_nil_iff.mp hnil).2 hne

/-- FIN is sent after the SYN. -/
theorem Bookkeeping.synSent_of_finSent (h : s.Bookkeeping) (hfin : s.finSent = true) :
    s.synSent = true := by
  by_contra hf
  rw [(h.unsent (by simpa using hf)).2] at hfin
  cases hfin

/-- The SYN has been sent once there is a sequence number behind it. -/
theorem Bookkeeping.synSent_iff (h : s.Bookkeeping) : s.synSent = true ↔ 0 < s.nextSeqno := by
  refine ⟨h.started, fun hpos => ?_⟩
  by_contra hf
  have := (h.unsent (by simpa using hf)).1
  omega

theorem Bookkeeping.ackReceived (h : s.Bookkeeping) (stale : TCPSegment) (ackno : WrappingInt32)
    (windowSize : UInt16) : (s.ackReceived stale ackno windowSize).Bookkeeping := by
  rcases s.ackReceived_cases stale ackno windowSize with heq | ⟨-, heq⟩
  · rw [heq]
    exact h
  · rw [heq]
    exact (h.acknowledged _ windowSize).fillWindow

theorem Bookkeeping.synSent_ackReceived (h : s.Bookkeeping) (hsyn : s.synSent = true)
    (stale : TCPSegment) (ackno : WrappingInt32) (windowSize : UInt16) :
    (s.ackReceived stale ackno windowSize).synSent = true := by
  rcases s.ackReceived_cases stale ackno windowSize with heq | ⟨-, heq⟩
  · rw [heq, hsyn]
  · rw [heq]
    exact (h.acknowledged _ windowSize).synSent_fillWindow

/-- **What `tick` does**: time passes, and the oldest outstanding segment may be queued again. -/
theorem tick_cases (s : TCPSender) (stale : TCPSegment) (ms : ℕ) :
    (∃ elapsed, s.tick stale ms = { s with timeElapsed := elapsed }) ∨
      (s.timerRunning = true ∧ ∃ retransmissions rto,
        (retransmissions = s.consecutiveRetransmissions ∨
          retransmissions = s.consecutiveRetransmissions + 1) ∧
        s.tick stale ms =
          { s with
            segmentsOut := s.segmentsOut ++ [s.segmentsOutstanding.headD stale]
            consecutiveRetransmissions := retransmissions
            rto := rto
            timeElapsed := 0 }) := by
  by_cases hrunning : s.timerRunning = true
  · unfold tick
    rw [if_neg (by simp [hrunning])]
    dsimp only
    -- the timer has expired and the retransmission counts, or it does not, or there is time left
    split_ifs with hexpired hcount
    · exact Or.inr ⟨hrunning, _, _, Or.inr rfl, rfl⟩
    · exact Or.inr ⟨hrunning, _, _, Or.inl rfl, rfl⟩
    · exact Or.inl ⟨_, rfl⟩
  · exact Or.inl ⟨s.timeElapsed, if_pos (by simpa using hrunning)⟩

/-- A tick queues nothing but outstanding segments: while the timer runs there is one, so the front
of the outstanding queue is defined. -/
theorem Ledger.mem_tick_segmentsOut (h : s.Ledger) {stale seg : TCPSegment} {ms : ℕ}
    (hseg : seg ∈ (s.tick stale ms).segmentsOut) :
    seg ∈ s.segmentsOut ∨ seg ∈ s.segmentsOutstanding := by
  rcases s.tick_cases stale ms with ⟨_, heq⟩ | ⟨hrunning, _, _, -, heq⟩
  · rw [heq] at hseg
    exact Or.inl hseg
  · obtain ⟨front, segs, hfront⟩ := List.exists_cons_of_ne_nil (h.outstanding_ne_nil hrunning)
    rw [heq, hfront] at hseg
    rcases List.mem_append.mp hseg with hm | hm
    · exact Or.inl hm
    · rw [List.mem_singleton.mp hm, hfront]
      exact Or.inr List.mem_cons_self

/-- A tick that counts a retransmission leaves a segment in the queue. -/
theorem tick_segmentsOut_ne_nil {stale : TCPSegment} {ms : ℕ}
    (h : s.consecutiveRetransmissions.toNat < (s.tick stale ms).consecutiveRetransmissions.toNat) :
    (s.tick stale ms).segmentsOut ≠ [] := by
  rcases s.tick_cases stale ms with ⟨_, heq⟩ | ⟨-, _, _, -, heq⟩
  · rw [heq] at h
    exact absurd h (lt_irrefl _)
  · rw [heq]
    simp

/-! ## Calls that send nothing new -/

/-- From `s` to `s'` nothing changes but the stream, the clock and the outbound queue. -/
structure Keeps (s s' : TCPSender) : Prop where
  isn_eq : s'.isn = s.isn
  nextSeqno_eq : s'.nextSeqno = s.nextSeqno
  synSent_eq : s'.synSent = s.synSent
  finSent_eq : s'.finSent = s.finSent
  bytesInFlight_eq : s'.bytesInFlight = s.bytesInFlight
  windowSize_eq : s'.receiverWindowSize = s.receiverWindowSize
  freeSpace_eq : s'.receiverFreeSpace = s.receiverFreeSpace
  timerRunning_eq : s'.timerRunning = s.timerRunning
  outstanding_eq : s'.segmentsOutstanding = s.segmentsOutstanding

theorem Bookkeeping.keeps (h : s.Bookkeeping) (hk : Keeps s s') (hwf : s'.stream.WellFormed) :
    s'.Bookkeeping where
  wellFormed := hwf
  bytesInFlight_eq := by rw [hk.bytesInFlight_eq, hk.outstanding_eq, h.bytesInFlight_eq]
  bytesInFlight_le := by
    rw [hk.bytesInFlight_eq, hk.nextSeqno_eq]
    exact h.bytesInFlight_le
  contiguous := by
    rw [hk.isn_eq, hk.nextSeqno_eq, hk.bytesInFlight_eq, hk.outstanding_eq]
    exact h.contiguous
  payload_le := hk.outstanding_eq ▸ h.payload_le
  timer := by rw [hk.timerRunning_eq, hk.outstanding_eq, h.timer]
  unsent := by
    rw [hk.synSent_eq, hk.nextSeqno_eq, hk.finSent_eq]
    exact h.unsent
  started := by
    rw [hk.synSent_eq, hk.nextSeqno_eq]
    exact h.started
  free := by
    rw [hk.outstanding_eq, hk.freeSpace_eq, hk.windowSize_eq]
    exact h.free

theorem tick_keeps (s : TCPSender) (stale : TCPSegment) (ms : ℕ) :
    Keeps s (s.tick stale ms) ∧ (s.tick stale ms).stream = s.stream := by
  rcases s.tick_cases stale ms with ⟨_, heq⟩ | ⟨-, _, _, -, heq⟩ <;> rw [heq] <;>
    exact ⟨⟨rfl, rfl, rfl, rfl, rfl, rfl, rfl, rfl, rfl⟩, rfl⟩

theorem mapStreamIn_keeps (s : TCPSender) (f : ByteStream → ByteStream) :
    Keeps s (s.mapStreamIn f) :=
  ⟨rfl, rfl, rfl, rfl, rfl, rfl, rfl, rfl, rfl⟩

theorem setSegmentsOut_keeps (s : TCPSender) (segs : List TCPSegment) :
    Keeps s { s with segmentsOut := segs } :=
  ⟨rfl, rfl, rfl, rfl, rfl, rfl, rfl, rfl, rfl⟩

/-- **Every call keeps the bookkeeping.** -/
theorem Bookkeeping.step (h : s.Bookkeeping) (op : SenderOp) : (s.step op).Bookkeeping := by
  cases op with
  | write data =>
    exact h.keeps (s.mapStreamIn_keeps fun stream => (stream.write data).1)
      (h.wellFormed.write data)
  | endInput => exact h.keeps (s.mapStreamIn_keeps _) h.wellFormed.endInput
  | setError => exact h.keeps (s.mapStreamIn_keeps _) h.wellFormed.setError
  | fillWindow => exact h.fillWindow
  | ackReceived stale ackno windowSize => exact h.ackReceived stale ackno windowSize
  | tick stale ms =>
    obtain ⟨hk, hstream⟩ := s.tick_keeps stale ms
    exact h.keeps hk (hstream.symm ▸ h.wellFormed)
  | sendEmptySegment => exact h.keeps (s.setSegmentsOut_keeps _) h.wellFormed
  | popSegment => exact h.keeps (s.setSegmentsOut_keeps _) h.wellFormed

end TCPSender

/-- **The bookkeeping of every run.** After every sequence of calls, with arbitrary acknowledgments,
the bytes in flight are the length of the outstanding queue; whatever part of the queue has been
taken off, the next segment is not longer than what is then left of the counter; the segments are
contiguous, end at the next sequence number and have positive lengths; and the timer runs exactly
while there are any. -/
theorem sender_bookkeeping (capacity : ℕ) (retxTimeout : UInt16) (isn : WrappingInt32)
    (ops : List SenderOp) :
    let s := Run.exec TCPSender.step (TCPSender.new capacity retxTimeout isn) ops
    s.bytesInFlight = seqLength s.segmentsOutstanding ∧
      (∀ popped seg rest, s.segmentsOutstanding = popped ++ seg :: rest →
        seg.lengthInSequenceSpace ≤ s.bytesInFlight - seqLength popped) ∧
      s.bytesInFlight ≤ s.nextSeqno ∧
      Contiguous s.isn (s.nextSeqno - s.bytesInFlight) s.segmentsOutstanding ∧
      (∀ seg ∈ s.segmentsOutstanding, 0 < seg.lengthInSequenceSpace) ∧
      (s.timerRunning = true ↔ s.segmentsOutstanding ≠ []) := by
  intro s
  have h : s.Bookkeeping :=
    Run.preserved (fun _ op h => h.step op) (TCPSender.bookkeeping_new capacity retxTimeout isn) ops
  refine ⟨h.bytesInFlight_eq, ?_, h.bytesInFlight_le, h.contiguous,
    fun _ => h.contiguous.length_pos, ?_⟩
  · intro popped seg rest hqueue
    rw [h.bytesInFlight_eq, hqueue, seqLength_append, seqLength_cons]
    omega
  · rw [h.timer]
    simp

end Sponge
