import Mathlib.Tactic
import Sponge.TCPSender.Encoding

/-!
# Flow control

The sender computes the room behind what it has sent in 16 bits. While the right edge that the peer
advertises does not move behind the next sequence number, the room is exact and no new segment
passes the edge. When the edge does move back, the room wraps around and the sender believes that
almost the whole sequence space of 16 bits is free.

## Main definitions

* `SenderTrace.WithinWindow t op`: the new segments of the call `op` end within the window of the
  most recent accepted acknowledgment, or are one probe of a zero window
* `SenderTrace.EdgeKept t op`: if the call is an accepted acknowledgment, its right edge is not
  behind what has been sent
* `TCPSender.Room s a w`: what the sender may still send after the acknowledgment `a` with the
  window `w`

## Main results

* `TCPSender.Ledger.newFreeSpace_modEq`: the room is exact modulo `2 ^ 16`
* `flow_control_of_edge_kept`: runs that keep the edge stay within the window
* `flow_control_shrinking_window`: a run whose window shrinks does not
-/

namespace Sponge

namespace SenderTrace

/-- **The call stays within the window**: every new segment other than the SYN ends at most at
`abs_ackno + max(window_size, 1)` for the most recent acknowledgment that was accepted. -/
def WithinWindow (t : SenderTrace) (op : SenderOp) : Prop :=
  ∀ segs seg segs', t.sender.pushedBy op = segs ++ seg :: segs' → seg.header.syn = false →
    ∃ absAckno windowSize, (t.step op).acks.head? = some (absAckno, windowSize) ∧
      t.sender.nextSeqno + seqLength segs + seg.lengthInSequenceSpace ≤
        absAckno + max windowSize.toNat 1

/-- An accepted acknowledgment leaves the right edge at or ahead of what has been sent; if the
queue is empty it acknowledges all of it. An edge behind it does no harm when the wrapped room
happens to forbid sending: no room in an open window, or some in a closed one. -/
def EdgeKept (t : SenderTrace) (op : SenderOp) : Prop :=
  ∀ ack ∈ t.sender.ackedBy op,
    (t.sender.segmentsOutstanding = [] → ack.1 = t.sender.nextSeqno) ∧
    (t.sender.nextSeqno ≤ ack.1 + ack.2.toNat ∨
      (2 ^ 16 ∣ t.sender.nextSeqno - (ack.1 + ack.2.toNat) ↔ ack.2 ≠ 0))

instance (t : SenderTrace) (op : SenderOp) : Decidable (t.EdgeKept op) :=
  inferInstanceAs (Decidable (∀ ack ∈ t.sender.ackedBy op, _))

end SenderTrace

namespace TCPSender

variable {s s' : TCPSender} {new : List TCPSegment} {a : ℕ} {w : UInt16}

/-! ## The room after an acknowledgment -/

/-- What is left outstanding starts where the bytes in flight say. -/
theorem Ledger.absSeqno_unacked (h : s.Ledger) (hsmall : s.bytesInFlight < 2 ^ 31)
    {front : TCPSegment} {segs : List TCPSegment} (hu : s.unacked a = front :: segs) :
    s.absSeqno front = s.nextSeqno - seqLength (s.unacked a) ∧
      front ∈ s.segmentsOutstanding := by
  obtain ⟨hlen, -, hcont⟩ := h.split a
  have hle := h.bytesInFlight_le
  have hmem : front ∈ s.unacked a := by simp [hu]
  rw [hu] at hcont hlen ⊢
  exact ⟨absSeqno_eq hcont.1 (by omega) (by omega), mem_of_mem_unacked hmem⟩

/-- **The room is exact modulo `2 ^ 16`** while something is outstanding. -/
theorem Ledger.newFreeSpace_modEq (h : s.Ledger) (hsmall : s.bytesInFlight < 2 ^ 31)
    (hne : s.unacked a ≠ []) :
    (s.newFreeSpace a w).toNat + s.nextSeqno ≡ a + w.toNat [MOD 2 ^ 16] := by
  obtain ⟨front, segs, hu⟩ := List.exists_cons_of_ne_nil hne
  obtain ⟨habs, -⟩ := h.absSeqno_unacked hsmall hu
  obtain ⟨hlen, -, -⟩ := h.split a
  have hle := h.bytesInFlight_le
  have hfree : s.newFreeSpace a w =
      (UInt64.ofNat a + w.toUInt64 - UInt64.ofNat (s.absSeqno front) -
        UInt64.ofNat (s.bytesInFlight - seqLength (s.acked a))).toUInt16 := by
    unfold newFreeSpace
    rw [hu]
    rfl
  have hw := w.toNat_lt
  rw [hfree, habs, Nat.ModEq]
  simp only [UInt64.toNat_toUInt16, UInt64.toNat_sub, UInt64.toNat_add, UInt64.toNat_ofNat',
    UInt16.toNat_toUInt64]
  omega

/-- What the sender may still send after the acknowledgment `a` with the window `w`: nothing beyond
the right edge of an open window, and one probe of a closed one. The acknowledgment is in or before
the oldest outstanding segment. -/
structure Room (s : TCPSender) (a : ℕ) (w : UInt16) : Prop where
  windowSize_eq : s.receiverWindowSize = w
  near : a + s.bytesInFlight ≤ s.nextSeqno + 1002
  opened : w ≠ 0 → s.receiverFreeSpace ≠ 0 →
    s.nextSeqno + s.receiverFreeSpace.toNat ≤ a + w.toNat
  closed : w = 0 → s.receiverFreeSpace = 0 → s.nextSeqno ≤ a

/-- An acknowledgment that keeps the edge leaves room only within its window. -/
theorem Ledger.room_acknowledged (h : s.Ledger) (hsmall : s.bytesInFlight < 2 ^ 31)
    (hle : a ≤ s.nextSeqno) (hempty : s.segmentsOutstanding = [] → a = s.nextSeqno)
    (hedge : s.nextSeqno ≤ a + w.toNat ∨
      (2 ^ 16 ∣ s.nextSeqno - (a + w.toNat) ↔ w ≠ 0)) :
    Room (s.acknowledged a w) a w := by
  obtain ⟨hlen, -, -⟩ := h.split a
  have hbif : s.bytesInFlight - seqLength (s.acked a) = seqLength (s.unacked a) := by omega
  have hw := w.toNat_lt
  rw [acknowledged_eq, hbif]
  cases hu : s.unacked a with
  | nil =>
    -- everything is acknowledged, and the whole window is free
    have hall : a = s.nextSeqno := by
      by_cases hne : s.segmentsOutstanding = []
      · exact hempty hne
      · exact Nat.le_antisymm hle (h.nextSeqno_le hne hu)
    have hfree : s.newFreeSpace a w = w := by simp [newFreeSpace, hu]
    rw [hfree]
    refine ⟨rfl, ?_, fun _ _ => ?_, fun _ _ => ?_⟩ <;> simp only [seqLength_nil] <;> omega
  | cons front segs =>
    have hne : s.unacked a ≠ [] := by simp [hu]
    obtain ⟨habs, hmem⟩ := h.absSeqno_unacked hsmall hu
    have hmod := h.newFreeSpace_modEq (w := w) hsmall hne
    have hlt := (s.newFreeSpace a w).toNat_lt
    have hfront := h.length_le hmem
    have hle' := h.bytesInFlight_le
    have hcov : a < s.absSeqno front + front.lengthInSequenceSpace := by
      simpa [covers] using unacked_eq_cons hu
    rw [hu] at habs hlen
    rw [Nat.ModEq] at hmod
    refine ⟨rfl, ?_, ?_, ?_⟩ <;> dsimp only
    · omega
    · -- with the edge ahead the room does not wrap, and with the edge behind there is none
      intro hw0 hfree
      have hpos := ne_zero_iff_toNat_pos.mp hfree
      rcases hedge with hedge | hedge
      · omega
      · have := hedge.mpr hw0
        omega
    · -- no room in a closed window: the edge is at what has been sent
      intro hw0 hfree
      have hzero : w.toNat = 0 := by rw [hw0]; rfl
      have hzero' : (s.newFreeSpace a w).toNat = 0 := by rw [hfree]; rfl
      rcases hedge with hedge | hedge
      · omega
      · by_contra hlate
        refine absurd hw0 (hedge.mp ?_)
        omega

/-- Sending within the room. -/
theorem Room.emits (h : Room s a w) (he : Emits s s' new) (hne : new ≠ [])
    (hopen : s.receiverWindowSize ≠ 0 → seqLength new ≤ s.receiverFreeSpace.toNat)
    (hclosed : s.receiverWindowSize = 0 → seqLength new = 1 ∧ s.receiverFreeSpace = 0) :
    Room s' a w ∧ s.nextSeqno + seqLength new ≤ a + max w.toNat 1 := by
  have hpos := he.contiguous.seqLength_pos hne
  rw [h.windowSize_eq] at hopen hclosed
  have hnear := h.near
  by_cases hw : w = 0
  · -- after the probe the free space is `65535`, which a closed window does not use
    obtain ⟨hone, hfree⟩ := hclosed hw
    have hle := h.closed hw hfree
    refine ⟨⟨he.windowSize_eq.trans h.windowSize_eq, ?_, fun hw' => absurd hw hw', ?_⟩, by omega⟩
    · rw [he.bytesInFlight_eq, he.nextSeqno_eq]
      omega
    · rw [he.freeSpace_eq, hone, hfree]
      exact fun _ hf => absurd hf (by decide)
  · have hfit := hopen hw
    have hle := h.opened hw (ne_zero_iff_toNat_pos.mpr (by omega))
    refine ⟨⟨he.windowSize_eq.trans h.windowSize_eq, ?_, ?_, fun hw' => absurd hw' hw⟩, by omega⟩
    · rw [he.bytesInFlight_eq, he.nextSeqno_eq]
      omega
    · rw [he.freeSpace_eq, he.nextSeqno_eq, toNat_sub_ofNat hfit]
      intro _ _
      omega

/-! ## Runs that keep the edge -/

/-- **The invariant**: what is in flight is less than half of the sequence space, the sender waits
for its first acknowledgment with only the SYN outstanding, and then it has room only within the
window that was accepted last. -/
structure Windowed (s : TCPSender) (acks : List (ℕ × UInt16)) : Prop where
  bookkeeping : s.Bookkeeping
  small : s.bytesInFlight < 2 ^ 31
  waiting : acks = [] → s.synSent = true → s.synOutstanding = true
  room : ∀ a w acks', acks = (a, w) :: acks' → Room s a w

variable {acks : List (ℕ × UInt16)}

theorem Windowed.keeps (h : Windowed s acks) (hk : Keeps s s') (hs' : s'.Bookkeeping) :
    Windowed s' acks where
  bookkeeping := hs'
  small := hk.bytesInFlight_eq ▸ h.small
  waiting := by
    unfold synOutstanding
    rw [hk.synSent_eq, hk.outstanding_eq]
    exact h.waiting
  room := by
    intro a w acks' heq
    have hroom := h.room a w acks' heq
    refine ⟨hk.windowSize_eq.trans hroom.windowSize_eq, ?_, ?_, ?_⟩
    · rw [hk.bytesInFlight_eq, hk.nextSeqno_eq]
      exact hroom.near
    · rw [hk.freeSpace_eq, hk.nextSeqno_eq]
      exact hroom.opened
    · rw [hk.freeSpace_eq, hk.nextSeqno_eq]
      exact hroom.closed

theorem Windowed.acknowledged (h : Windowed s acks) (hle : a ≤ s.nextSeqno)
    (hempty : s.segmentsOutstanding = [] → a = s.nextSeqno)
    (hedge : s.nextSeqno ≤ a + w.toNat ∨
      (2 ^ 16 ∣ s.nextSeqno - (a + w.toNat) ↔ w ≠ 0)) :
    Windowed (s.acknowledged a w) ((a, w) :: acks) where
  bookkeeping := h.bookkeeping.acknowledged a w
  small := by
    rw [acknowledged_eq]
    exact Nat.lt_of_le_of_lt (Nat.sub_le _ _) h.small
  waiting := fun hnil => by cases hnil
  room := by
    intro a' w' acks' heq
    obtain ⟨rfl, rfl⟩ := Prod.mk.inj (List.cons.inj heq).1
    exact h.bookkeeping.room_acknowledged h.small hle hempty hedge

/-- **`fill_window` stays within the room.** -/
theorem Windowed.fillWindow (h : Windowed s acks) :
    Windowed s.fillWindow acks ∧
      ∀ seg ∈ s.fillWindow.segmentsOut.drop s.segmentsOut.length, seg.header.syn = false →
        ∃ a w, acks.head? = some (a, w) ∧ s.fillWindow.nextSeqno ≤ a + max w.toNat 1 := by
  have hs' := h.bookkeeping.fillWindow
  rcases h.bookkeeping.fillWindow_cases with
    ⟨hunsent, he⟩ | ⟨-, -, heq⟩ | ⟨hsent, hidle, new, hne, he, hopen, hclosed, hno⟩
  · -- the SYN; an acknowledgment accepted before it covers nothing
    have hnil := h.bookkeeping.outstanding_of_unsent hunsent
    have hbif := h.bookkeeping.bytesInFlight_eq_zero_iff.mpr hnil
    refine ⟨⟨hs', ?_, fun _ _ => ?_, ?_⟩, ?_⟩
    · rw [he.bytesInFlight_eq]
      simp [hbif, TCPSegment.lengthInSequenceSpace]
    · simp [synOutstanding, he.outstanding_eq, hnil]
    · intro a w acks' heq
      have hroom := h.room a w acks' heq
      have hfree := h.bookkeeping.free hnil
      have hroom' : Room { s with synSent := true } a w :=
        ⟨hroom.windowSize_eq, hroom.near, hroom.opened, hroom.closed⟩
      refine (hroom'.emits he (List.cons_ne_nil _ _) ?_ ?_).1
      · intro hw
        have hpos : 0 < s.receiverWindowSize.toNat := ne_zero_iff_toNat_pos.mp hw
        simpa [TCPSegment.lengthInSequenceSpace, hfree, Nat.one_le_iff_ne_zero] using hpos.ne'
      · intro hw
        exact ⟨by simp [TCPSegment.lengthInSequenceSpace], hfree.trans hw⟩
    · rw [he.drop_segmentsOut]
      simp
  · rw [heq]
    exact ⟨h, by simp⟩
  · obtain ⟨a, w, acks', rfl⟩ : ∃ a w acks', acks = (a, w) :: acks' := by
      cases acks with
      | nil =>
        -- without an acknowledgment the SYN is outstanding, and the sender is idle
        have hso := h.waiting rfl hsent
        simp [idle, hso] at hidle
      | cons ack acks' => exact ⟨ack.1, ack.2, acks', rfl⟩
    obtain ⟨hroom, hle⟩ := (h.room a w acks' rfl).emits he hne hopen hclosed
    refine ⟨⟨hs', ?_, fun hnil => absurd hnil (List.cons_ne_nil _ _), ?_⟩, ?_⟩
    · have hnear := hroom.near
      have hw := w.toNat_lt
      have hnext := he.nextSeqno_eq
      omega
    · intro a' w' acks'' heq
      obtain ⟨rfl, rfl⟩ := Prod.mk.inj (List.cons.inj heq).1
      exact hroom
    · intro seg _ _
      exact ⟨a, w, rfl, by rw [he.nextSeqno_eq]; exact hle⟩

end TCPSender

namespace SenderTrace

/-- A call that keeps the edge keeps the invariant and stays within the window. -/
theorem windowed_step {t : SenderTrace} (h : t.sender.Windowed t.acks) {op : SenderOp}
    (hedge : t.EdgeKept op) :
    (t.step op).sender.Windowed (t.step op).acks ∧ t.WithinWindow op := by
  unfold WithinWindow SenderTrace.step
  rcases t.sender.record_cases op with
    ⟨hk, hnone, hacks, -⟩ | ⟨-, mid, heq, hpushed, hmid⟩
  · rw [hnone, hacks]
    exact ⟨h.keeps hk (h.bookkeeping.step op), by simp⟩
  · have hmid' : mid.Windowed (t.sender.ackedBy op ++ t.acks) ∧
        mid.nextSeqno = t.sender.nextSeqno := by
      rcases hmid with ⟨rfl, hacks⟩ | ⟨stale, a, w, hvalid, rfl, hacks⟩
      · rw [hacks]
        exact ⟨h, rfl⟩
      · have hle := TCPSender.le_of_ackValid hvalid
        obtain ⟨hempty, hedge⟩ := hedge (a, w) (by rw [hacks]; simp)
        rw [hacks]
        refine ⟨h.acknowledged hle hempty hedge, ?_⟩
        rw [TCPSender.acknowledged_eq]
    obtain ⟨hwin, hnext⟩ := hmid'
    obtain ⟨hwin', hbound⟩ := hwin.fillWindow
    rw [heq, hpushed]
    refine ⟨hwin', ?_⟩
    intro segs seg segs' hsplit hsyn
    obtain ⟨a, w, hhead, hle⟩ := hbound seg (by rw [hsplit]; simp) hsyn
    refine ⟨a, w, hhead, ?_⟩
    rw [hwin.bookkeeping.nextSeqno_fillWindow, hnext, hsplit, seqLength_append,
      seqLength_cons] at hle
    omega

end SenderTrace

/-- **Flow control is respected while the edge is kept.** In every run in which each accepted
acknowledgment leaves the right edge at or ahead of what has been sent, no new segment passes the
right edge of the acknowledgment accepted last, but for the single probe of a zero window. -/
theorem flow_control_of_edge_kept (capacity : ℕ) (retxTimeout : UInt16) (isn : WrappingInt32)
    (ops : List SenderOp)
    (hedge : Run.Always SenderTrace.step SenderTrace.EdgeKept
      (SenderTrace.new capacity retxTimeout isn) ops) :
    Run.Always SenderTrace.step SenderTrace.WithinWindow
      (SenderTrace.new capacity retxTimeout isn) ops := by
  refine Run.always_of_invariant (I := fun t => t.sender.Windowed t.acks)
    (fun t op h hop => (SenderTrace.windowed_step h hop).1)
    (fun t op h hop => (SenderTrace.windowed_step h hop).2) ?_ hedge
  exact ⟨TCPSender.bookkeeping_new capacity retxTimeout isn,
    by simp [SenderTrace.new, TCPSender.new],
    fun _ hf => by simp [SenderTrace.new, TCPSender.new] at hf, fun _ _ _ hf => by cases hf⟩

/-- A window of two that moves on with what is acknowledged keeps its edge. -/
theorem flow_control_of_edge_kept_sliding :
    Run.Always SenderTrace.step SenderTrace.WithinWindow (SenderTrace.new 8 1000 ⟨0⟩)
      [.fillWindow, .ackReceived {} ⟨1⟩ 2, .write [1, 2, 3, 4, 5], .fillWindow,
        .ackReceived {} ⟨3⟩ 2] :=
  flow_control_of_edge_kept 8 1000 ⟨0⟩ _ (by decide)

/-- **A window that shrinks is not respected.** The peer opens a window of two and the sender fills
it; the same acknowledgment with a window of one makes the room wrap around, and the sender sends
two more bytes beyond the edge. -/
theorem flow_control_shrinking_window :
    ¬ Run.Always SenderTrace.step SenderTrace.WithinWindow (SenderTrace.new 8 1000 ⟨0⟩)
      [.fillWindow, .ackReceived {} ⟨1⟩ 2, .write [1, 2, 3, 4], .fillWindow,
        .ackReceived {} ⟨1⟩ 1] := by
  rintro ⟨-, -, -, -, h, -⟩
  obtain ⟨a, w, hhead, hle⟩ :=
    h [] { header := { seqno := ⟨3⟩ }, payload := [3, 4] } [] (by decide) rfl
  obtain ⟨rfl, rfl⟩ := Prod.mk.inj (Option.some.inj hhead)
  exact absurd hle (by decide)

end Sponge
