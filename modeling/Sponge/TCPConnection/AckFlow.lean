import Mathlib.Tactic
import Sponge.TCPConnection.Transmission
import Sponge.TCPConnection.Reception

/-!
# Acknowledgments given and taken

A connection puts the acknowledgment number of its receiver on whatever it sends; only an RST may
carry a number that the receiver never gave. In the other direction, the sender gives up outstanding
segments only for an arriving segment whose acknowledgment number covers them, and then only
segments below that number.

## Main definitions

* `TCPReceiver.Acknowledges r seg`: the acknowledgment on `seg`, if any, is the one `r` gives
* `TCPSender.ackedUpTo`: the first sequence number that is not acknowledged
* `TCPConnection.Releases`: an arriving segment makes the sender give up outstanding segments

## Main results

* `TCPConnection.Transmits.step_acknowledges`: what a call adds to the outbound queue carries the
  acknowledgment of the receiver
* `TCPConnection.Transmits.step_ackedUpTo`: only a segment that releases something moves `ackedUpTo`
-/

namespace Sponge

/-! ## Acknowledgments given -/

/-- The acknowledgment on a segment other than an RST is the one that the receiver gives. -/
def TCPReceiver.Acknowledges (r : TCPReceiver) (seg : TCPSegment) : Prop :=
  seg.header.ack = true → seg.header.rst = false → r.ackno = some seg.header.ackno

theorem TCPReceiver.acknowledges_stamp (r : TCPReceiver) {seg : TCPSegment}
    (h : seg.header.ack = false) : r.Acknowledges (r.stamp seg) := by
  unfold TCPReceiver.stamp
  split
  · rename_i heq
    exact fun _ _ => heq
  · exact fun hack => absurd (h.symm.trans hack) Bool.false_ne_true

theorem TCPReceiver.acknowledges_stampReset (r : TCPReceiver) (seg : TCPSegment) :
    r.Acknowledges (r.stampReset seg) :=
  fun _ hrst => absurd hrst.symm Bool.false_ne_true

namespace TCPConnection

variable {c : TCPConnection} {S : List UInt8} {segs : List TCPSegment}

/-- The segments in the outbound queue that are not among `segs` carry the acknowledgment of the
receiver. -/
def AcknowledgesBeyond (segs : List TCPSegment) (c : TCPConnection) : Prop :=
  ∀ seg ∈ c.segmentsOut, seg ∈ segs ∨ c.receiver.Acknowledges seg

/-- **What a call adds to the outbound queue carries the acknowledgment of the receiver**, as it is
after the call. -/
theorem Transmits.step_acknowledges (h : c.Transmits S) (op : ConnectionOp) :
    (c.step op).AcknowledgesBeyond c.segmentsOut := by
  have hunstamped : (c.prepared op).sender.Unstamped :=
    h.carries.bookkeeping.exec (fun _ call hb hs _ => hs.step hb call) h.carries.unstamped
  intro seg hseg
  rw [step_eq, Ending.apply_segmentsOut] at hseg
  rcases List.mem_append.mp hseg with hm | hm
  · left
    cases op with
    | popSegment => exact List.mem_of_mem_tail hm
    | _ => exact hm
  · right
    unfold TCPReceiver.Acknowledges
    rw [step_receiver_ackno]
    rcases Ending.mem_sent hm with ⟨seg₀, hm₀, rfl⟩ | ⟨-, stale, rfl⟩
    · exact (c.received op).acknowledges_stamp (hunstamped seg₀ (List.mem_append_left _ hm₀))
    · exact (c.received op).acknowledges_stampReset _

end TCPConnection

/-! ## Acknowledgments taken -/

namespace TCPSender

variable {s s' : TCPSender} {new : List TCPSegment}

/-- The first sequence number that is not acknowledged. -/
def ackedUpTo (s : TCPSender) : ℕ := s.nextSeqno - s.bytesInFlight

theorem Keeps.ackedUpTo_eq (h : Keeps s s') : s'.ackedUpTo = s.ackedUpTo := by
  unfold ackedUpTo
  rw [h.nextSeqno_eq, h.bytesInFlight_eq]

theorem Emits.ackedUpTo_eq (h : Emits s s' new) : s'.ackedUpTo = s.ackedUpTo := by
  unfold ackedUpTo
  rw [h.nextSeqno_eq, h.bytesInFlight_eq, Nat.add_sub_add_right]

/-- What is sent for the first time is not acknowledged yet. -/
theorem Bookkeeping.fillWindow_ackedUpTo (h : s.Bookkeeping) :
    s.fillWindow.ackedUpTo = s.ackedUpTo := by
  obtain ⟨new, he⟩ := h.exists_emits
  exact he.ackedUpTo_eq

theorem Bookkeeping.step_ackedUpTo (h : s.Bookkeeping) {op : SenderOp}
    (hop : ∀ stale ackno w, op ≠ .ackReceived stale ackno w) :
    (s.step op).ackedUpTo = s.ackedUpTo := by
  cases op with
  | ackReceived stale ackno w => exact absurd rfl (hop stale ackno w)
  | fillWindow => exact h.fillWindow_ackedUpTo
  | tick stale ms => exact (s.tick_keeps stale ms).1.ackedUpTo_eq
  | _ => rfl

/-- `ack_received` removes outstanding segments: the acknowledgment number is valid and covers the
oldest of them. -/
def Releases (s : TCPSender) (stale : TCPSegment) (ackno : WrappingInt32) : Prop :=
  s.ackValid stale (unwrap ackno s.isn s.nextSeqno) = true ∧
    ∃ front ∈ s.segmentsOutstanding.head?, s.covers (unwrap ackno s.isn s.nextSeqno) front = true

instance (s : TCPSender) (stale : TCPSegment) (ackno : WrappingInt32) :
    Decidable (s.Releases stale ackno) :=
  inferInstanceAs (Decidable (_ ∧ _))

/-- **What an acknowledgment releases** lies below the acknowledgment number. -/
theorem Bookkeeping.ackReceived_ackedUpTo (h : s.Bookkeeping) (hnear : s.bytesInFlight < 2 ^ 31)
    (stale : TCPSegment) (ackno : WrappingInt32) (w : UInt16) :
    (s.ackReceived stale ackno w).ackedUpTo = s.ackedUpTo ∨
      (s.Releases stale ackno ∧
        (s.ackReceived stale ackno w).ackedUpTo ≤ unwrap ackno s.isn s.nextSeqno) := by
  rcases s.ackReceived_cases stale ackno w with heq | ⟨hvalid, heq⟩
  · rw [heq]
    exact Or.inl rfl
  · rw [heq, (h.acknowledged _ w).fillWindow_ackedUpTo, acknowledged_eq]
    unfold ackedUpTo
    generalize ha : unwrap ackno s.isn s.nextSeqno = a at hvalid ⊢
    obtain ⟨hlen, -, -⟩ := h.split a
    -- a valid acknowledgment may cover nothing, for instance a repeated one
    by_cases hnil : s.acked a = []
    · rw [hnil]
      exact Or.inl rfl
    · refine Or.inr ⟨⟨by rw [ha]; exact hvalid, ?_⟩, ?_⟩
      · rw [ha]
        by_contra hnone
        refine hnil (acked_eq_nil_iff.mpr fun front hfront => ?_)
        by_contra hcovers
        exact hnone ⟨front, hfront, by simpa using hcovers⟩
      · have hle := h.acked_le hnil (Or.inl hnear)
        dsimp only
        omega

end TCPSender

namespace TCPConnection

variable {c : TCPConnection} {S : List UInt8} {stale seg : TCPSegment}

/-- An arriving segment makes the sender give up outstanding segments. -/
def Releases (c : TCPConnection) (stale seg : TCPSegment) : Prop :=
  c.active = true ∧ (c.synSent = true → seg.header.ack = true) ∧
    c.sender.Releases stale seg.header.ackno

instance (c : TCPConnection) (stale seg : TCPSegment) : Decidable (c.Releases stale seg) :=
  inferInstanceAs (Decidable (_ ∧ _))

/-- What happens to `ackedUpTo` happens before the call ends. -/
theorem step_ackedUpTo_eq (c : TCPConnection) (op : ConnectionOp) :
    (c.step op).sender.ackedUpTo = (c.prepared op).sender.ackedUpTo :=
  (c.step_keeps op).ackedUpTo_eq

/-- After an RST both streams are in error. -/
theorem step_erred_of_rst (hpath : c.path seg = .exchanged) (hrst : seg.header.rst = true) :
    (c.step (.segmentReceived stale seg)).Erred := by
  have hending : c.ending (.segmentReceived stale seg) = .reset stale := by
    simp only [ending, hpath, hrst, if_true]
  rw [step_eq, hending]
  exact Or.inl rfl

/-- **Only an arriving segment that releases something moves `ackedUpTo`**, and not beyond its
acknowledgment number; if it is an RST the streams are in error. -/
theorem Transmits.step_ackedUpTo (h : c.Transmits S) (hnear : c.sender.bytesInFlight < 2 ^ 31)
    (op : ConnectionOp) :
    (c.step op).sender.ackedUpTo = c.sender.ackedUpTo ∨
      ∃ stale seg, op = .segmentReceived stale seg ∧ c.Releases stale seg ∧
        (seg.header.rst = true → (c.step op).Erred) ∧
        (c.step op).sender.ackedUpTo ≤
          unwrap seg.header.ackno c.sender.isn c.sender.nextSeqno := by
  have hb := h.carries.bookkeeping
  rw [step_ackedUpTo_eq]
  by_cases hop : ∃ stale seg, op = .segmentReceived stale seg ∧ c.path seg = .exchanged
  · obtain ⟨stale, seg, rfl, hpath⟩ := hop
    obtain ⟨hactive, -, hsent⟩ := path_eq_exchanged_iff.mp hpath
    rw [prepared_exchanged hpath]
    rcases hb.ackReceived_ackedUpTo hnear stale seg.header.ackno seg.header.win with
      hsame | ⟨hreleases, hle⟩
    · exact Or.inl hsame
    · exact Or.inr ⟨stale, seg, rfl, ⟨hactive, fun hs => (hsent hs).2.1, hreleases⟩,
        step_erred_of_rst hpath, hle⟩
  · -- no other call gives the sender an acknowledgment
    refine Or.inl (hb.exec (I := fun s => s.ackedUpTo = c.sender.ackedUpTo)
      (fun s call hb hs hcall => (hb.step_ackedUpTo ?_).trans hs) rfl)
    rintro stale ackno w rfl
    exact hop (exists_exchanged_of_mem hcall)

/-- An error is not forgotten. -/
theorem Transmits.step_erred (h : c.Transmits S) (hwf : c.receiver.reassembler.WellFormed)
    (op : ConnectionOp) (herr : c.Erred) : (c.step op).Erred :=
  herr.imp ((c.step_receiver op).progress hwf).1.error (h.step_extends op).error

end TCPConnection

end Sponge
