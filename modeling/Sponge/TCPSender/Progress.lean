import Mathlib.Tactic
import Sponge.TCPSender.Encoding

/-!
# The sender never stalls

The owner of a sender calls `fill_window` after each write and after the end of the input, as
`TCPConnection` does. Then a sender that has something left to send always has a segment outstanding
and its timer running, so that a retransmission or an acknowledgment will come: with nothing
outstanding the whole window is free, and `fill_window` would have sent something.

## Main definitions

* `SenderOp.followed`: a call together with the `fill_window` that its owner makes after it
* `TCPSender.Settled`: a sender with nothing outstanding has nothing to send
* `SenderTrace.Live`: the invariant of the runs of such an owner

## Main results

* `TCPSender.Bookkeeping.settled_fillWindow`: `fill_window` settles a sender
* `SenderTrace.Live.call`: every call of such an owner keeps the invariant
* `sender_never_stalls`: in every reachable state with work left the timer is running
-/

namespace Sponge

/-- What the owner of a sender does for one call: after a write and after the end of the input it
also calls `fill_window`. -/
def SenderOp.followed : SenderOp → List SenderOp
  | .write data => [.write data, .fillWindow]
  | .endInput => [.endInput, .fillWindow]
  | op => [op]

/-- One call of such an owner, recorded. -/
def SenderTrace.call (t : SenderTrace) (op : SenderOp) : SenderTrace :=
  Run.exec SenderTrace.step t op.followed

def SenderOp.isWrite : SenderOp → Bool
  | .write _ => true
  | _ => false

/-- Nothing is written after the end of the input. -/
def SenderTrace.WritesOpen (t : SenderTrace) (op : SenderOp) : Prop :=
  op.isWrite = true → t.sender.stream.inputEnded = false

instance (t : SenderTrace) (op : SenderOp) : Decidable (t.WritesOpen op) :=
  inferInstanceAs (Decidable (op.isWrite = true → _))

namespace TCPSender

variable {s s' : TCPSender}

/-- With nothing outstanding there is nothing to send: FIN has been sent, or the stream is empty and
open. -/
def Settled (s : TCPSender) : Prop :=
  s.segmentsOutstanding = [] →
    s.finSent = true ∨ (s.stream.size = 0 ∧ s.stream.inputEnded = false)

/-- With nothing outstanding the whole window is free, so only the lack of something to send can
keep `fill_window` from sending. -/
theorem Bookkeeping.idle_iff_of_nil (h : s.Bookkeeping) (hnil : s.segmentsOutstanding = []) :
    s.idle = true ↔ s.finSent = true ∨ (s.stream.size = 0 ∧ s.stream.inputEnded = false) := by
  have hso : s.synOutstanding = false := by simp [synOutstanding, hnil]
  have hroom : (if s.receiverWindowSize ≠ 0 then s.receiverFreeSpace == 0
      else s.receiverFreeSpace != 0) = false := by
    rw [h.free hnil]
    split_ifs with hw <;> simpa using hw
  have hwork : (s.stream.bufferSize == 0 && !s.stream.eof) = true ↔
      s.stream.size = 0 ∧ s.stream.inputEnded = false := by
    simp only [ByteStream.bufferSize, ByteStream.eof, ByteStream.bufferEmpty, Bool.and_eq_true,
      beq_iff_eq]
    exact and_congr_right fun hsize => by simp [hsize]
  unfold idle
  rw [hso, hroom, Bool.false_or, Bool.or_false, Bool.or_eq_true, hwork, or_comm]

/-- **`fill_window` settles a sender.** -/
theorem Bookkeeping.settled_fillWindow (h : s.Bookkeeping) : s.fillWindow.Settled := by
  intro hnil
  obtain ⟨hidle, heq⟩ := h.idle_of_outstanding_eq_nil hnil
  rw [heq] at hnil ⊢
  exact (h.idle_iff_of_nil hnil).mp hidle

theorem Settled.keeps (h : s.Settled) (hk : Keeps s s') (hsize : s'.stream.size = s.stream.size)
    (hended : s'.stream.inputEnded = s.stream.inputEnded) : s'.Settled := by
  unfold Settled
  rw [hk.outstanding_eq, hk.finSent_eq, hsize, hended]
  exact h

theorem Settled.ackReceived (h : s.Settled) (hs : s.Bookkeeping) (stale : TCPSegment)
    (ackno : WrappingInt32) (windowSize : UInt16) :
    (s.ackReceived stale ackno windowSize).Settled := by
  rcases s.ackReceived_cases stale ackno windowSize with heq | ⟨-, heq⟩
  · rw [heq]
    exact h
  · rw [heq]
    exact (hs.acknowledged _ windowSize).settled_fillWindow

/-- FIN is sent only at the end of the stream. -/
def Finished (s : TCPSender) : Prop :=
  s.finSent = true → s.stream.eof = true

/-- An empty queue means that all that was sent has been acknowledged. -/
def AllAcked (s : TCPSender) (acks : List (ℕ × UInt16)) : Prop :=
  s.synSent = true → s.segmentsOutstanding = [] →
    ∃ windowSize, (s.nextSeqno, windowSize) ∈ acks

theorem Bookkeeping.finished_fillWindow (h : s.Bookkeeping) (hfin : s.Finished) :
    s.fillWindow.Finished := by
  rcases h.fillWindow_cases with ⟨hunsent, he⟩ | ⟨-, -, heq⟩ | ⟨-, hidle, new, -, he, -⟩
  · -- the SYN carries no FIN
    have hno : s.fillWindow.finSent = false := by
      rw [he.finSent_eq]
      simpa using (h.unsent hunsent).2
    intro hsent
    rw [hno] at hsent
    cases hsent
  · rwa [heq]
  · intro hsent
    rw [he.finSent_eq, finSent_of_not_idle hidle, Bool.false_or, List.any_eq_true] at hsent
    obtain ⟨seg, hseg, hf⟩ := hsent
    exact he.fin_eof seg hseg hf

theorem Bookkeeping.allAcked_fillWindow (h : s.Bookkeeping) {acks : List (ℕ × UInt16)}
    (hacked : s.AllAcked acks) : s.fillWindow.AllAcked acks := by
  intro hsyn hnil
  obtain ⟨-, heq⟩ := h.idle_of_outstanding_eq_nil hnil
  rw [heq] at hsyn hnil ⊢
  exact hacked hsyn hnil

theorem Bookkeeping.allAcked_acknowledged (h : s.Bookkeeping) {acks : List (ℕ × UInt16)} {a : ℕ}
    {w : UInt16} (hle : a ≤ s.nextSeqno) (hacked : s.AllAcked acks) :
    (s.acknowledged a w).AllAcked ((a, w) :: acks) := by
  rw [acknowledged_eq]
  intro hsyn hnil
  by_cases hne : s.segmentsOutstanding = []
  · -- nothing was outstanding before either
    obtain ⟨w', hw'⟩ := hacked hsyn hne
    exact ⟨w', List.mem_cons_of_mem _ hw'⟩
  · -- an acknowledgment that empties the queue is one of everything
    have hall : a = s.nextSeqno := Nat.le_antisymm hle (h.nextSeqno_le hne hnil)
    exact ⟨w, by rw [← hall]; exact List.mem_cons_self⟩

end TCPSender

namespace SenderTrace

variable {t : SenderTrace} {op : SenderOp}

/-- What every call preserves. -/
structure Steady (t : SenderTrace) : Prop where
  bookkeeping : t.sender.Bookkeeping
  finished : t.sender.Finished
  allAcked : t.sender.AllAcked t.acks

/-- **The invariant** of an owner that calls `fill_window` where it should. -/
structure Live (t : SenderTrace) : Prop extends Steady t where
  settled : t.sender.Settled

theorem Steady.finished_step (h : t.Steady) (hop : t.WritesOpen op) :
    (t.sender.step op).Finished := by
  cases op with
  | write data =>
    -- after FIN the input has ended, and a write is excluded
    intro hfin
    have hended := (ByteStream.eof_iff.mp (h.finished hfin)).1
    rw [hop rfl] at hended
    cases hended
  | endInput =>
    intro hfin
    exact ByteStream.eof_iff.mpr ⟨rfl, (ByteStream.eof_iff.mp (h.finished hfin)).2⟩
  | setError => exact h.finished
  | fillWindow => exact h.bookkeeping.finished_fillWindow h.finished
  | ackReceived stale ackno windowSize =>
    simp only [TCPSender.step]
    rcases t.sender.ackReceived_cases stale ackno windowSize with heq | ⟨-, heq⟩
    · rw [heq]
      exact h.finished
    · rw [heq]
      refine (h.bookkeeping.acknowledged _ windowSize).finished_fillWindow ?_
      rw [TCPSender.acknowledged_eq]
      exact h.finished
  | tick stale ms =>
    obtain ⟨hk, hstream⟩ := t.sender.tick_keeps stale ms
    unfold TCPSender.Finished
    simp only [TCPSender.step, hk.finSent_eq, hstream]
    exact h.finished
  | sendEmptySegment => exact h.finished
  | popSegment => exact h.finished

theorem Steady.step (h : t.Steady) (hop : t.WritesOpen op) : (t.step op).Steady := by
  refine ⟨h.bookkeeping.step op, h.finished_step hop, ?_⟩
  unfold SenderTrace.step
  dsimp only
  rcases t.sender.record_cases op with ⟨hk, -, hacks, -⟩ | ⟨-, mid, heq, -, hmid⟩
  · rw [hacks]
    unfold TCPSender.AllAcked
    rw [hk.synSent_eq, hk.outstanding_eq, hk.nextSeqno_eq]
    exact h.allAcked
  · rw [heq]
    rcases hmid with ⟨rfl, hacks⟩ | ⟨stale, a, w, hvalid, rfl, hacks⟩
    · rw [hacks]
      exact h.bookkeeping.allAcked_fillWindow h.allAcked
    · rw [hacks]
      exact (h.bookkeeping.acknowledged a w).allAcked_fillWindow
        (h.bookkeeping.allAcked_acknowledged (TCPSender.le_of_ackValid hvalid) h.allAcked)

theorem Steady.live_fillWindow (h : t.Steady) : (t.step .fillWindow).Live :=
  ⟨h.step (fun hw => by cases hw), h.bookkeeping.settled_fillWindow⟩

/-- **Every call keeps the invariant**, provided nothing is written after the end of the input. -/
theorem Live.call (h : t.Live) (hop : t.WritesOpen op) : (t.call op).Live := by
  have hstep := h.toSteady.step hop
  cases op with
  | write data => exact hstep.live_fillWindow
  | endInput => exact hstep.live_fillWindow
  | fillWindow => exact h.toSteady.live_fillWindow
  | ackReceived stale ackno windowSize =>
    exact ⟨hstep, h.settled.ackReceived h.bookkeeping stale ackno windowSize⟩
  | tick stale ms =>
    obtain ⟨hk, hstream⟩ := t.sender.tick_keeps stale ms
    exact ⟨hstep, h.settled.keeps hk (congrArg ByteStream.size hstream)
      (congrArg ByteStream.inputEnded hstream)⟩
  | setError => exact ⟨hstep, h.settled⟩
  | sendEmptySegment => exact ⟨hstep, h.settled⟩
  | popSegment => exact ⟨hstep, h.settled⟩

theorem live_new (capacity : ℕ) (retxTimeout : UInt16) (isn : WrappingInt32) :
    (new capacity retxTimeout isn).Live where
  bookkeeping := TCPSender.bookkeeping_new capacity retxTimeout isn
  finished := fun hf => by cases hf
  allAcked := fun hf => by cases hf
  settled := fun _ => Or.inr ⟨rfl, rfl⟩

/-- **A live sender with work left has a segment outstanding and its timer running.** -/
theorem Live.running (h : t.Live)
    (hwork : 0 < t.sender.stream.size ∨
      (t.sender.stream.eof = true ∧ t.sender.finSent = false)) :
    t.sender.segmentsOutstanding ≠ [] ∧ t.sender.timerRunning = true := by
  have hne : t.sender.segmentsOutstanding ≠ [] := by
    intro hnil
    -- a settled sender with an empty queue is done, or waits for its application
    rcases h.settled hnil with hfin | ⟨hsize, hopen⟩
    · have heof := h.finished hfin
      rcases hwork with hpos | ⟨-, hunfin⟩
      · have := (ByteStream.eof_iff.mp heof).2
        omega
      · rw [hfin] at hunfin
        cases hunfin
    · rcases hwork with hpos | ⟨heof, -⟩
      · omega
      · rw [(ByteStream.eof_iff.mp heof).1] at hopen
        cases hopen
  exact ⟨hne, by simpa [h.bookkeeping.timer] using hne⟩

/-- At the end of the stream with nothing in flight, FIN was sent and all was acknowledged. -/
theorem Live.closed (h : t.Live) (heof : t.sender.stream.eof = true)
    (hbif : t.sender.bytesInFlight = 0) :
    t.sender.finSent = true ∧ ∃ windowSize, (t.sender.nextSeqno, windowSize) ∈ t.acks := by
  have hnil := h.bookkeeping.bytesInFlight_eq_zero_iff.mp hbif
  have hfin : t.sender.finSent = true := by
    by_contra hf
    exact (h.running (Or.inr ⟨heof, by simpa using hf⟩)).1 hnil
  exact ⟨hfin, h.allAcked (h.bookkeeping.synSent_of_finSent hfin) hnil⟩

/-- The FIN that was sent stands on the last segment. -/
theorem Encodes.exists_fin {isn : WrappingInt32} (h : t.Encodes isn)
    (hfin : t.sender.finSent = true) :
    ∃ segs seg, t.sent = segs ++ [seg] ∧ seg.header.fin = true := by
  rw [h.fin, List.any_eq_true] at hfin
  obtain ⟨seg, hseg, hf⟩ := hfin
  obtain ⟨segs, segs', heq⟩ := List.append_of_mem hseg
  have hlast := (heq ▸ h.finLast).eq_nil hf
  exact ⟨segs, seg, by rw [heq, hlast], hf⟩

end SenderTrace

/-- **The sender never stalls.** Let each write and each end of the input be followed by
`fill_window`, and nothing be written after the end of the input. In every state reached, whatever
the acknowledgments, a sender that has sent its SYN and still has bytes or an unsent FIN to transmit
has an outstanding segment and a running timer; and at the end of the stream with nothing in flight
the FIN was sent, as the last segment, and an acknowledgment of everything up to it was accepted. -/
theorem sender_never_stalls (capacity : ℕ) (retxTimeout : UInt16) (isn : WrappingInt32)
    (ops : List SenderOp)
    (hopen : Run.Always SenderTrace.call SenderTrace.WritesOpen
      (SenderTrace.new capacity retxTimeout isn) ops) :
    let t := Run.exec SenderTrace.call (SenderTrace.new capacity retxTimeout isn) ops
    (t.sender.synSent = true →
      (0 < t.sender.stream.bufferSize ∨
        (t.sender.stream.eof = true ∧ t.sender.finSent = false)) →
      t.sender.segmentsOutstanding ≠ [] ∧ t.sender.timerRunning = true) ∧
    (t.sender.stream.eof = true → t.sender.bytesInFlight = 0 →
      t.sender.finSent = true ∧
      ∃ segs seg windowSize, t.sent = segs ++ [seg] ∧ seg.header.fin = true ∧
        (seqLength t.sent, windowSize) ∈ t.acks) := by
  intro t
  have hlive : t.Live :=
    Run.invariant (fun _ _ h hop => h.call hop)
      (SenderTrace.live_new capacity retxTimeout isn) hopen
  have henc : t.Encodes isn :=
    Run.preserved (fun _ op h => Run.preserved (fun _ op h => h.step op) h op.followed)
      (SenderTrace.encodes_new capacity retxTimeout isn) ops
  refine ⟨fun _ hwork => hlive.running hwork, fun heof hbif => ?_⟩
  obtain ⟨hfin, windowSize, hack⟩ := hlive.closed heof hbif
  obtain ⟨segs, seg, hsent, hf⟩ := henc.exists_fin hfin
  exact ⟨hfin, segs, seg, windowSize, hsent, hf, henc.nextSeqno_eq ▸ hack⟩

/-- Three bytes and the end of the input, sent into a zero window by one probe after another. -/
theorem sender_never_stalls_zero_window :
    let t := Run.exec SenderTrace.call (SenderTrace.new 8 1000 ⟨0⟩)
      [.fillWindow, .ackReceived {} ⟨1⟩ 0, .write [1, 2, 3], .endInput, .ackReceived {} ⟨2⟩ 0]
    t.sender.synSent = true ∧ 0 < t.sender.stream.bufferSize ∧
      t.sender.segmentsOutstanding ≠ [] ∧ t.sender.timerRunning = true := by
  intro t
  have hsyn : t.sender.synSent = true := by decide
  have hwork : 0 < t.sender.stream.bufferSize := by decide
  exact ⟨hsyn, hwork, (sender_never_stalls 8 1000 ⟨0⟩ _ (by decide)).1 hsyn (Or.inl hwork)⟩

end Sponge
