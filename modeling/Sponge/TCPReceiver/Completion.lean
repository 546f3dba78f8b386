import Mathlib.Tactic
import Sponge.TCPReceiver.Placement

/-!
# The segment that completes the inbound stream

The output of a reassembler ends when the bytes written reach the end of the stream. Which push does
this can be told before it is made: the end is known with it, and the run of bytes at hand, those of
the ring and those of the push, reaches from what has been written to the end exactly.

## Main definitions

* `StreamReassembler.Completes`, `TCPReceiver.Completes`: a push, a segment that does this
* `StreamReassembler.Formed`: well formed, or without capacity

## Main results

* `StreamReassembler.Formed.completes_iff`, `TCPReceiver.completes_iff`: after such a push, after
  such a segment, and after no other, the output has ended
-/

namespace Sponge

namespace StreamReassembler

variable {r : StreamReassembler} {data : List UInt8} {index : ℕ} {eof : Bool}

/-- **The push completes the stream**: the end that is known with it lies behind the run of bytes at
hand, as many as the output has room for. -/
def Completes (r : StreamReassembler) (data : List UInt8) (index : ℕ) (eof : Bool) : Prop :=
  (if eof then some (index + data.length) else r.eofIndex) =
    some (r.output.nwritten + (r.delivered data index).length)

instance (r : StreamReassembler) (data : List UInt8) (index : ℕ) (eof : Bool) :
    Decidable (r.Completes data index eof) :=
  inferInstanceAs (Decidable (_ = _))

/-- The reassembler is well formed, or it has no capacity. -/
def Formed (r : StreamReassembler) : Prop :=
  r.WellFormed ∨ r.capacity = 0

theorem formed_new (capacity : ℕ) : (new capacity).Formed := by
  rcases Nat.eq_zero_or_pos capacity with rfl | hpos
  · exact Or.inr rfl
  · exact Or.inl (wellFormed_new hpos)

/-- Without capacity a push only records the end. -/
theorem pushSubstring_of_capacity_eq_zero (h : r.capacity = 0) :
    r.pushSubstring data index eof = r.finish (index + data.length) eof := by
  -- the window is empty, so that neither loop makes a round
  have hstore : r.store data index = r := by
    have hempty : min (r.rpos + r.capacity) (index + data.length) - max r.rpos index = 0 := by
      omega
    unfold store
    dsimp only
    rw [hempty]
    rfl
  have hsubmit : r.submit = r := by
    unfold submit
    dsimp only
    rw [h, availLoop, if_neg (Nat.lt_irrefl _)]
  rw [pushSubstring, hstore, hsubmit]

theorem delivered_of_capacity_eq_zero (h : r.capacity = 0) : r.delivered data index = [] := by
  refine Reassembly.contiguous_none ?_ _
  unfold inserted Reassembly.insert pending
  rw [h, if_neg (by omega), if_neg (by omega)]

theorem Formed.pushSubstring (h : r.Formed) (data : List UInt8) (index : ℕ) (eof : Bool) :
    (r.pushSubstring data index eof).Formed := by
  rcases h with hwf | hzero
  · exact Or.inl (hwf.pushSubstring data index eof)
  · right
    rw [pushSubstring_of_capacity_eq_zero hzero]
    exact hzero

/-- **After such a push, and after no other, the output has ended.** -/
theorem Formed.completes_iff (h : r.Formed) (hopen : r.output.inputEnded = false) :
    r.Completes data index eof ↔ (r.pushSubstring data index eof).output.inputEnded = true := by
  unfold Completes
  rcases h with hwf | hzero
  · rw [hwf.pushSubstring_output_inputEnded, hopen, Bool.false_or, decide_eq_true_iff,
      hwf.pushSubstring_output_nwritten, hwf.pushSubstring_eofIndex_eq]
    exact eq_comm
  · -- nothing is delivered, and the end is compared with what has been written before
    rw [delivered_of_capacity_eq_zero hzero, pushSubstring_of_capacity_eq_zero hzero]
    unfold finish
    dsimp only [List.length_nil, Nat.add_zero]
    generalize (if eof then some (index + data.length) else r.eofIndex) = eofIndex
    by_cases hend : some r.output.bytesWritten = eofIndex
    · rw [if_pos hend]
      exact iff_of_true hend.symm rfl
    · rw [if_neg hend, hopen]
      exact iff_of_false (fun heq => hend heq.symm) Bool.false_ne_true

end StreamReassembler

namespace TCPReceiver

variable {r : TCPReceiver} {seg : TCPSegment}

/-- The position after the FIN that is known with a segment at `absSeq`: its own, if the whole of it
lies before the end of the window. -/
def knownFin (r : TCPReceiver) (absSeq : ℕ) (seg : TCPSegment) : ℕ :=
  if decide (absSeq + seg.lengthInSequenceSpace ≤ r.oldAbsAckno + r.windowSize) && seg.header.fin
  then absSeq + seg.lengthInSequenceSpace
  else r.finAbsSeq

/-- **The segment completes the inbound stream**: it is passed on, and its payload completes the
stream, which ends with it if the FIN that is known comes right after it. -/
def Completes (r : TCPReceiver) (seg : TCPSegment) : Prop :=
  match r.passedOn seg with
  | none => False
  | some absSeq =>
    r.reassembler.Completes seg.payload (absSeq - 1)
      (absSeq - 1 + seg.payload.length + 2 == r.knownFin absSeq seg)

instance (r : TCPReceiver) (seg : TCPSegment) : Decidable (r.Completes seg) := by
  unfold Completes
  split <;> infer_instance

/-- **After such a segment, and after no other, the inbound stream has ended.** -/
theorem completes_iff (h : r.reassembler.Formed) (hopen : r.streamOut.inputEnded = false) :
    r.Completes seg ↔ (r.segmentReceived seg).1.streamOut.inputEnded = true := by
  rw [Completes, segmentReceived_eq]
  cases r.passedOn seg with
  | none => exact iff_of_false (fun hf => hf) (by simpa [streamOut] using hopen)
  | some absSeq =>
    dsimp only
    rw [streamOut, accept_reassembler]
    exact h.completes_iff hopen

/-- The ring stays well formed or without capacity, whatever arrives. -/
theorem step_formed (r : TCPReceiver) (op : ReceiverCall) (h : r.reassembler.Formed) :
    (r.step op).reassembler.Formed := by
  cases op with
  | read len =>
    exact h.imp (fun hwf => r.step_wellFormed (.read len) hwf) fun hzero => hzero
  | segmentReceived seg =>
    rw [step, segmentReceived_eq]
    cases r.passedOn seg with
    | none => exact h
    | some absSeq => exact h.pushSubstring _ _ _

end TCPReceiver

end Sponge
