import Mathlib.Tactic
import Sponge.StreamReassembler.Bounds
import Sponge.TCPReceiver.Placement

/-!
# The accesses of the receiver

What reaches the reassembler is filtered by the window of the receiver, and the reassembler takes
stream indices modulo its capacity. A receiver with any capacity at all makes no access out of range
and no division by zero, whatever arrives. A receiver without capacity has no window, but a segment
that straddles the left edge of an empty window still passes: a repetition of the initial sequence
number with at least two sequence numbers. It makes the reassembler divide by zero.

## Main definitions

* `TCPReceiver.segmentReceivedChecked`: `segment_received` with the accesses below it checked
* `TCPReceiver.InBounds`: nothing goes wrong in a call
* `TCPReceiver.NoStraddling`: no segment with two numbers repeats the initial sequence number

## Main results

* `TCPReceiver.segmentReceivedChecked_of_wellFormed`: with a well-formed reassembler nothing goes
  wrong
* `TCPReceiver.Blocked.passedOn_isSome_iff`: what reaches a reassembler without capacity
* `receiving_in_bounds_iff`, `receiving_divides_by_zero`: when something does
-/

namespace Sponge

open Checked (Fault)

namespace TCPReceiver

variable {r : TCPReceiver} {seg : TCPSegment} {a : ℕ}

/-! ## The checked function -/

/-- The last part of `segment_received`, which hands the payload to the reassembler. -/
def acceptChecked (r : TCPReceiver) (absSeq : ℕ) (allFill : Bool) (seg : TCPSegment) :
    Except Fault TCPReceiver := do
  let finAbsSeq :=
    if allFill && seg.header.fin then absSeq + seg.lengthInSequenceSpace else r.finAbsSeq
  let streamIndices := if absSeq > 0 then absSeq - 1 else 0
  let reassembler ← r.reassembler.pushSubstringChecked seg.payload streamIndices
    (streamIndices + seg.payload.length + 2 == finAbsSeq)
  return { r with finAbsSeq := finAbsSeq, reassembler := reassembler }

/-- `segment_received` with every modulo and every access of `push_substring` checked; it makes none
itself. -/
def segmentReceivedChecked (r : TCPReceiver) (seg : TCPSegment) :
    Except Fault (TCPReceiver × Bool) :=
  let oldAbsAckno := r.oldAbsAckno
  match r.learnIsn seg with
  | none => return (r, false)
  | some isn =>
    let r := { r with isn := some isn }
    let checkpoint := r.streamOut.bytesWritten
    let absSeq := unwrap seg.header.seqno isn checkpoint
    let oldWindowSize := r.windowSize
    let length := seg.lengthInSequenceSpace
    if r.finAbsSeq ≠ 0 ∧ r.finAbsSeq ≤ absSeq ∧ length = 0 then
      return (r, true)
    else if ¬(absSeq < oldAbsAckno + oldWindowSize ∧ oldAbsAckno < absSeq + length) then
      return (r, length == 0 && absSeq == oldAbsAckno)
    else do
      let allFill := decide (absSeq + length ≤ oldAbsAckno + oldWindowSize)
      let r ← r.acceptChecked absSeq allFill seg
      return (r, true)

/-- **What a segment does to the accesses**: they are made for the segments that are passed on. -/
theorem segmentReceivedChecked_eq (r : TCPReceiver) (seg : TCPSegment) :
    r.segmentReceivedChecked seg =
      match r.passedOn seg with
      | none => .ok (r.segmentReceived seg)
      | some absSeq => do
        let r ← { r with isn := r.learnIsn seg }.acceptChecked absSeq
          (decide (absSeq + seg.lengthInSequenceSpace ≤ r.oldAbsAckno + r.windowSize)) seg
        return (r, true) := by
  unfold segmentReceivedChecked segmentReceived
  cases hisn : r.learnIsn seg with
  | none =>
    rw [passedOn_eq_none hisn]
    rfl
  | some isn =>
    rw [passedOn_of_absSeq (absSeq_of_learnIsn hisn)]
    have hout : ({ r with isn := some isn } : TCPReceiver).streamOut.bytesWritten =
      r.streamOut.bytesWritten := rfl
    have hwindow : ({ r with isn := some isn } : TCPReceiver).windowSize = r.windowSize := rfl
    simp only [hout, hwindow]
    split_ifs <;> rfl

/-- Nothing goes wrong when a well-formed reassembler takes a payload. -/
theorem acceptChecked_eq (h : r.reassembler.WellFormed) (absSeq : ℕ) (allFill : Bool) :
    r.acceptChecked absSeq allFill seg = .ok (r.accept absSeq allFill seg) := by
  change r.reassembler.pushSubstringChecked _ _ _ >>= _ = _
  rw [h.pushSubstringChecked_eq]
  rfl

/-- **Nothing goes wrong** when a segment arrives at a receiver with a well-formed reassembler. -/
theorem segmentReceivedChecked_of_wellFormed (h : r.reassembler.WellFormed) (seg : TCPSegment) :
    r.segmentReceivedChecked seg = .ok (r.segmentReceived seg) := by
  unfold segmentReceivedChecked segmentReceived
  cases r.learnIsn seg with
  | none => rfl
  | some isn =>
    dsimp only
    rw [acceptChecked_eq (r := { r with isn := some isn }) h]
    split_ifs <;> rfl

/-- A reassembler without capacity divides by zero. -/
theorem acceptChecked_of_capacity_eq_zero (h : r.reassembler.capacity = 0) (absSeq : ℕ)
    (allFill : Bool) : r.acceptChecked absSeq allFill seg = .error .divisionByZero := by
  change r.reassembler.pushSubstringChecked _ _ _ >>= _ = _
  rw [StreamReassembler.pushSubstringChecked_of_capacity_eq_zero h]
  rfl

/-! ## Runs -/

/-- No modulo by zero is evaluated and nothing is accessed outside its bounds. -/
def InBounds (r : TCPReceiver) : ReceiverCall → Prop
  | .segmentReceived seg => (r.segmentReceivedChecked seg).isOk = true
  | .read _ => True

instance (r : TCPReceiver) : ∀ op, Decidable (r.InBounds op)
  | .segmentReceived seg => inferInstanceAs (Decidable ((r.segmentReceivedChecked seg).isOk = true))
  | .read _ => inferInstanceAs (Decidable True)

/-- No segment with two sequence numbers or more repeats the initial sequence number. -/
def NoStraddling (r : TCPReceiver) : ReceiverCall → Prop
  | .segmentReceived seg => ¬ (r.isn = some seg.header.seqno ∧ 2 ≤ seg.lengthInSequenceSpace)
  | .read _ => True

instance (r : TCPReceiver) : ∀ op, Decidable (r.NoStraddling op)
  | .segmentReceived seg =>
    inferInstanceAs (Decidable ¬ (r.isn = some seg.header.seqno ∧ 2 ≤ seg.lengthInSequenceSpace))
  | .read _ => inferInstanceAs (Decidable True)

theorem inBounds_of_wellFormed (h : r.reassembler.WellFormed) (op : ReceiverCall) :
    r.InBounds op := by
  cases op with
  | read len => trivial
  | segmentReceived seg =>
    rw [InBounds, segmentReceivedChecked_of_wellFormed h]
    rfl

/-! ## A receiver without capacity -/

/-- A receiver without capacity before anything has reached its reassembler. -/
structure Blocked (r : TCPReceiver) : Prop where
  capacity : r.reassembler.capacity = 0
  output_capacity : r.streamOut.capacity = 0
  nwritten : r.streamOut.nwritten = 0
  finAbsSeq : r.finAbsSeq = 0

theorem blocked_new : Blocked (new 0) := ⟨rfl, rfl, rfl, rfl⟩

variable (h : r.Blocked)
include h

/-- Nothing is ever advertised. -/
theorem Blocked.windowSize : r.windowSize = 0 := by
  simp [TCPReceiver.windowSize, ByteStream.remainingCapacity, h.output_capacity]

/-- The window, which is empty, starts at 1 once the SYN has arrived. -/
theorem Blocked.oldAbsAckno : r.oldAbsAckno = if r.isn.isSome then 1 else 0 := by
  simp [TCPReceiver.oldAbsAckno, absAckno, ByteStream.bytesWritten, h.nwritten, h.finAbsSeq]

/-- **A segment reaches the reassembler** if it starts before the empty window and ends after its
left edge. -/
theorem Blocked.passedOn_isSome_iff :
    (r.passedOn seg).isSome = true ↔
      r.isn = some seg.header.seqno ∧ 2 ≤ seg.lengthInSequenceSpace := by
  have hbytes : r.streamOut.bytesWritten = 0 := h.nwritten
  rw [Option.isSome_iff_exists]
  simp only [passedOn_eq_some_iff, InWindow, h.windowSize, h.oldAbsAckno, h.finAbsSeq]
  cases hisn : r.isn with
  | none => simp
  | some isn =>
    have habs : r.absSeq seg = some (unwrap seg.header.seqno isn 0) := by
      rw [absSeq_of_learnIsn (learnIsn_of_isSome hisn), hbytes]
    have hstart : unwrap seg.header.seqno isn 0 = 0 ↔ seg.header.seqno = isn :=
      unwrap_zero_eq_zero_iff
    simp only [habs, Option.some.injEq, Option.isSome_some, if_true]
    constructor
    · rintro ⟨absSeq, rfl, ⟨hlt, hlen⟩, -⟩
      have hzero : unwrap seg.header.seqno isn 0 = 0 := by omega
      exact ⟨(hstart.mp hzero).symm, by omega⟩
    · rintro ⟨heq, hlen⟩
      exact ⟨0, hstart.mpr heq.symm, ⟨by omega, by omega⟩, by simp⟩

theorem Blocked.inBounds_iff (op : ReceiverCall) : r.InBounds op ↔ r.NoStraddling op := by
  cases op with
  | read len => exact Iff.rfl
  | segmentReceived seg =>
    rw [NoStraddling, ← h.passedOn_isSome_iff, InBounds, segmentReceivedChecked_eq]
    cases r.passedOn seg with
    | none => simp [Except.isOk, Except.toBool]
    | some absSeq =>
      dsimp only
      rw [acceptChecked_of_capacity_eq_zero (by exact h.capacity)]
      simp [Except.isOk, Except.toBool]

theorem Blocked.step (op : ReceiverCall) (hin : r.NoStraddling op) : (r.step op).Blocked := by
  cases op with
  | read len => exact ⟨h.capacity, h.output_capacity, h.nwritten, h.finAbsSeq⟩
  | segmentReceived seg =>
    rw [NoStraddling, ← h.passedOn_isSome_iff, Option.not_isSome_iff_eq_none] at hin
    rw [TCPReceiver.step, segmentReceived_eq, hin]
    exact ⟨h.capacity, h.output_capacity, h.nwritten, h.finAbsSeq⟩

end TCPReceiver

/-- **Nothing goes wrong in a receiver**, whatever arrives and is read, if it has capacity. Without
capacity it is exactly the segments that repeat the initial sequence number and have two sequence
numbers or more that make it divide by zero. -/
theorem receiving_in_bounds_iff (capacity : ℕ) (calls : List ReceiverCall) :
    Run.Always TCPReceiver.step TCPReceiver.InBounds (TCPReceiver.new capacity) calls ↔
      (capacity = 0 →
        Run.Always TCPReceiver.step TCPReceiver.NoStraddling (TCPReceiver.new capacity) calls) := by
  rcases Nat.eq_zero_or_pos capacity with rfl | hpos
  · rw [forall_prop_of_true rfl]
    exact Run.always_congr_of_guarded
      (fun r op h hin => h.step op ((h.inBounds_iff op).mp hin)) (fun r op h => h.inBounds_iff op)
      TCPReceiver.blocked_new
  · refine iff_of_true ?_ fun hzero => absurd hzero hpos.ne'
    exact Run.always_of_preserved (I := fun r : TCPReceiver => r.reassembler.WellFormed)
      (fun r op h => r.step_wellFormed op h) (fun r op h => r.inBounds_of_wellFormed h op)
      (StreamReassembler.wellFormed_new hpos) calls

/-- A receiver without capacity gets the SYN, and then its sequence number again with two bytes. -/
theorem receiving_divides_by_zero :
    let syn : TCPSegment := { header := { seqno := ⟨5⟩, syn := true } }
    let again : TCPSegment := { header := { seqno := ⟨5⟩ }, payload := [1, 2] }
    let r := (TCPReceiver.new 0).step (.segmentReceived syn)
    r.streamOut.bytesWritten = 0 ∧ r.segmentReceivedChecked again = .error .divisionByZero ∧
      ¬ Run.Always TCPReceiver.step TCPReceiver.InBounds (TCPReceiver.new 0)
        [.segmentReceived syn, .segmentReceived again] := by
  decide

end Sponge
