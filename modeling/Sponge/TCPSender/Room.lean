import Mathlib.Tactic
import Sponge.TCPSender.Bookkeeping
import Sponge.TCPSender.Filling

/-!
# The room for the FIN

FIN takes a sequence number of its own, and `fill_window` sends it with the last bytes only if the
window has room for it. How much `fill_window` may send is its room: the free space, or one sequence
number into a window of size zero. An ended stream whose rest takes exactly the room leaves the FIN
out.

## Main definitions

* `TCPSender.room`, `TCPSender.ackRoom`: how much `fill_window` may send, and how much it may send
  after an acknowledgment
* `TCPSender.CrowdsOutFin`: after an acknowledgment the rest of the ended stream takes all the room

## Main results

* `TCPSender.Bookkeeping.fillWindow_room`: at the end of its input a sender uses its room, or sends
  FIN
* `TCPSender.Bookkeeping.ackReceived_eof_unfin_iff`: when the stream is exhausted without the FIN
-/

namespace Sponge

/-- The length of segments without SYN: their bytes, and one for a FIN. -/
theorem seqLength_eq_payloads {segs : List TCPSegment} (hlast : FinLast segs)
    (hsyn : ∀ seg ∈ segs, seg.header.syn = false) :
    seqLength segs =
      (payloads segs).length + (if segs.any fun seg => seg.header.fin then 1 else 0) := by
  induction segs with
  | nil => rfl
  | cons seg segs ih =>
    obtain ⟨hsynSeg, hsynSegs⟩ := List.forall_mem_cons.mp hsyn
    rw [seqLength_cons, ih hlast.2 hsynSegs, payloads_cons, List.length_append, List.any_cons]
    cases hf : seg.header.fin with
    | false => simp [TCPSegment.lengthInSequenceSpace, hsynSeg, hf, Nat.add_assoc]
    | true =>
      rw [hlast.1 hf]
      simp [TCPSegment.lengthInSequenceSpace, hsynSeg, hf]

namespace TCPSender

variable {s : TCPSender}

/-- How many sequence numbers `fill_window` may send: the free space of an open window, one into a
window of size zero. -/
def room (windowSize freeSpace : UInt16) : ℕ :=
  if windowSize ≠ 0 then freeSpace.toNat else if freeSpace = 0 then 1 else 0

/-- How many sequence numbers `ack_received` may send: none if the acknowledgment is not valid. -/
def ackRoom (s : TCPSender) (stale : TCPSegment) (ackno : WrappingInt32) (windowSize : UInt16) :
    ℕ :=
  let absAckno := unwrap ackno s.isn s.nextSeqno
  if s.ackValid stale absAckno then room windowSize (s.newFreeSpace absAckno windowSize) else 0

/-- The input has ended, FIN has not been sent, and after the acknowledgment the bytes that are left
take all the room. -/
def CrowdsOutFin (s : TCPSender) (stale : TCPSegment) (ackno : WrappingInt32)
    (windowSize : UInt16) : Prop :=
  s.stream.inputEnded = true ∧ s.finSent = false ∧
    s.stream.bufferSize = s.ackRoom stale ackno windowSize

instance (s : TCPSender) (stale : TCPSegment) (ackno : WrappingInt32) (windowSize : UInt16) :
    Decidable (s.CrowdsOutFin stale ackno windowSize) :=
  inferInstanceAs (Decidable (_ ∧ _ ∧ _))

theorem hasWork_of_inputEnded (hended : s.stream.inputEnded = true) : s.HasWork := by
  by_cases hsize : s.stream.size = 0
  · exact Or.inr (ByteStream.eof_iff.mpr ⟨hended, hsize⟩)
  · exact Or.inl (Nat.pos_of_ne_zero hsize)

/-- **At the end of its input a sender uses its room**, or sends FIN. -/
theorem Bookkeeping.fillWindow_room (h : s.Bookkeeping) (hsyn : s.synSent = true)
    (hso : s.synOutstanding = false) (hended : s.stream.inputEnded = true)
    (hfin : s.finSent = false) :
    ∃ new, Emits s s.fillWindow new ∧ (∀ seg ∈ new, seg.header.syn = false) ∧
      seqLength new ≤ room s.receiverWindowSize s.receiverFreeSpace ∧
      (s.fillWindow.finSent = true ∨
        seqLength new = room s.receiverWindowSize s.receiverFreeSpace) := by
  have hwork : (s.stream.bufferSize == 0 && !s.stream.eof) = false := by
    simp [ByteStream.bufferSize, ByteStream.eof, ByteStream.bufferEmpty, hended]
  rcases h.fillWindow_cases with
    ⟨hunsent, -⟩ | ⟨-, hidle, heq⟩ | ⟨-, -, new, -, he, hopen, hzero, hnosyn⟩
  · rw [hsyn] at hunsent
    cases hunsent
  · -- only the window can keep the sender from sending
    have hroom : room s.receiverWindowSize s.receiverFreeSpace = 0 := by
      unfold idle at hidle
      simp only [hso, hwork, hfin, Bool.false_or] at hidle
      unfold room
      by_cases hw : s.receiverWindowSize = 0
      · have hfree : s.receiverFreeSpace ≠ 0 := by simpa [hw] using hidle
        rw [if_neg (by simpa using hw), if_neg hfree]
      · have hfree : s.receiverFreeSpace = 0 := by simpa [hw] using hidle
        rw [if_pos hw, hfree]
        rfl
    exact ⟨[], by rw [heq]; exact Emits.refl h.wellFormed, by simp, Nat.zero_le _,
      Or.inr hroom.symm⟩
  · refine ⟨new, he, hnosyn, ?_⟩
    unfold room
    by_cases hw : s.receiverWindowSize = 0
    · -- a window of size zero is probed with one number
      obtain ⟨hlen, hfree⟩ := hzero hw
      rw [if_neg (by simpa using hw), if_pos hfree, hlen]
      exact ⟨le_refl 1, Or.inr rfl⟩
    · rw [if_pos hw]
      refine ⟨hopen hw, ?_⟩
      have hloop : s.fillWindow = s.fillLoop s.receiverFreeSpace.toNat := by
        simp [TCPSender.fillWindow, hsyn, hso, hwork, hfin, hw]
      have hwork' := hasWork_of_inputEnded hended
      obtain ⟨-, -, -, -, -, hdone⟩ := (fillEnds_fillLoop h.wellFormed hsyn hwork' le_rfl).fillsUp
        h.wellFormed hsyn hfin hwork'
      rw [← hloop] at hdone
      rcases hdone with hused | ⟨hempty, hsent⟩
      · right
        rw [he.freeSpace_eq] at hused
        have hleft := toNat_sub_ofNat (hopen hw)
        have hzero : (0 : UInt16).toNat = 0 := rfl
        rw [hused, hzero] at hleft
        have hbound := hopen hw
        omega
      · -- the stream is exhausted, and its input has ended
        left
        rw [hsent, ByteStream.eof, hempty, he.inputEnded_eq, hended]
        rfl

/-- **When `fill_window` exhausts an ended stream without sending FIN.** -/
theorem Bookkeeping.fillWindow_eof_unfin_iff (h : s.Bookkeeping) (hsyn : s.synSent = true)
    (hso : s.synOutstanding = false) (hended : s.stream.inputEnded = true)
    (hfin : s.finSent = false) :
    (s.fillWindow.stream.eof = true ∧ s.fillWindow.finSent = false) ↔
      s.stream.size = room s.receiverWindowSize s.receiverFreeSpace := by
  obtain ⟨new, he, hnosyn, hle, hused⟩ := h.fillWindow_room hsyn hso hended hfin
  have hlen := seqLength_eq_payloads he.finLast hnosyn
  have hfin' := he.finSent_eq
  rw [hfin, Bool.false_or] at hfin'
  rw [← hfin'] at hlen
  have hbytes := congrArg List.length he.buffer_eq
  rw [List.length_append, ← h.wellFormed.size_eq, ← he.wellFormed.size_eq] at hbytes
  have heof : s.fillWindow.stream.eof = true ↔ s.fillWindow.stream.size = 0 := by
    rw [ByteStream.eof_iff, he.inputEnded_eq, hended]
    simp
  rw [heof]
  cases hsent : s.fillWindow.finSent with
  | false =>
    rw [hsent] at hlen hused
    have hfull := hused.resolve_left Bool.false_ne_true
    simp only [Bool.false_eq_true, if_false] at hlen
    simp only [and_true]
    omega
  | true =>
    -- FIN stands behind all the bytes
    have hexhausted : s.fillWindow.stream.size = 0 := by
      rw [hsent, eq_comm, List.any_eq_true] at hfin'
      obtain ⟨seg, hseg, hf⟩ := hfin'
      exact heof.mp (he.fin_eof seg hseg hf)
    rw [hsent, if_pos rfl] at hlen
    simp only [Bool.true_eq_false, and_false, false_iff]
    omega

/-- **When an acknowledgment leaves an exhausted stream without FIN**: the input has ended, FIN was
not sent before, and the bytes that were left take all the room. -/
theorem Bookkeeping.ackReceived_eof_unfin_iff (h : s.Bookkeeping) (hsyn : s.synSent = true)
    {stale : TCPSegment} {ackno : WrappingInt32} {w : UInt16}
    (hso : s.ackValid stale (unwrap ackno s.isn s.nextSeqno) = true →
      (s.acknowledged (unwrap ackno s.isn s.nextSeqno) w).synOutstanding = false) :
    ((s.ackReceived stale ackno w).stream.eof = true ∧
        (s.ackReceived stale ackno w).finSent = false) ↔ s.CrowdsOutFin stale ackno w := by
  unfold CrowdsOutFin ackRoom
  dsimp only
  cases hvalid : s.ackValid stale (unwrap ackno s.isn s.nextSeqno) with
  | false =>
    rw [ackReceived_of_invalid w hvalid, ByteStream.eof_iff]
    simp only [Bool.false_eq_true, if_false, ByteStream.bufferSize]
    tauto
  | true =>
    rw [ackReceived_of_valid w hvalid, if_pos rfl]
    have hso := hso hvalid
    generalize unwrap ackno s.isn s.nextSeqno = a at hso ⊢
    have hb := h.acknowledged a w
    -- the acknowledgment touches neither the stream nor FIN
    have heq : (s.acknowledged a w).stream = s.stream ∧
        (s.acknowledged a w).finSent = s.finSent ∧ (s.acknowledged a w).synSent = s.synSent ∧
        (s.acknowledged a w).receiverWindowSize = w ∧
        (s.acknowledged a w).receiverFreeSpace = s.newFreeSpace a w := by
      rw [acknowledged_eq]
      exact ⟨rfl, rfl, rfl, rfl, rfl⟩
    obtain ⟨hstream, hfin, hsyn', hwindow, hfree⟩ := heq
    obtain ⟨new, he⟩ := hb.exists_emits
    by_cases hopen : s.stream.inputEnded = true ∧ s.finSent = false
    · rw [hb.fillWindow_eof_unfin_iff (hsyn'.trans hsyn) hso (hstream ▸ hopen.1)
        (hfin.trans hopen.2), hstream, hwindow, hfree]
      exact ⟨fun hsize => ⟨hopen.1, hopen.2, hsize⟩, fun hc => hc.2.2⟩
    · refine iff_of_false (fun hc => hopen ⟨?_, ?_⟩) fun hc => hopen ⟨hc.1, hc.2.1⟩
      · have hended := (ByteStream.eof_iff.mp hc.1).1
        rw [he.inputEnded_eq] at hended
        rw [← hstream]
        exact hended
      · have hunfin := hc.2
        rw [he.finSent_eq, Bool.or_eq_false_iff] at hunfin
        rw [← hfin]
        exact hunfin.1

end TCPSender

end Sponge
