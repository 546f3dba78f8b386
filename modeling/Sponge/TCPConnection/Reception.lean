import Mathlib.Tactic
import Sponge.TCPConnection.Calls
import Sponge.TCPReceiver.Arrival
import Sponge.TCPReceiver.Completion

/-!
# What a connection receives

Of all that happens to a connection only few things reach its receiver: an arriving segment, a read
of the inbound stream, and the error of a shutdown. A receiver that works on a stream keeps working
on it as long as the arriving segments are segments of that stream, and never takes back an
acknowledgment.

## Main definitions

* `ReceiverMove r op r'`: how the call `op` may change the receiver
* `ConnectionOp.written`: the bytes that a call writes to the inbound stream

## Main results

* `TCPConnection.step_receiver`: every call moves the receiver so
* `ReceiverMove.tracks`, `ReceiverMove.finAbsSeq_ne_zero`, `ReceiverMove.oldAbsAckno_le`: what such
  moves preserve
-/

namespace Sponge

/-- How a call may change the receiver of a connection. -/
inductive ReceiverMove (r : TCPReceiver) : ConnectionOp → TCPReceiver → Prop
  | same (op : ConnectionOp) : ReceiverMove r op r
  | segment (stale seg : TCPSegment) :
      ReceiverMove r (.segmentReceived stale seg) (r.segmentReceived seg).1
  | read (len : ℕ) : ReceiverMove r (.read len) (r.mapStreamOut fun s => (s.read len).1)
  | error {op : ConnectionOp} {r' : TCPReceiver} (h : ReceiverMove r op r') :
      ReceiverMove r op (r'.mapStreamOut ByteStream.setError)

namespace TCPConnection

/-- **Every call moves the receiver so.** -/
theorem step_receiver (c : TCPConnection) (op : ConnectionOp) :
    ReceiverMove c.receiver op (c.step op).receiver := by
  have hmove : ReceiverMove c.receiver op (c.received op) := by
    cases op with
    | segmentReceived stale seg =>
      simp only [received]
      split
      · exact .segment stale seg
      · exact .segment stale seg
      · exact .segment stale seg
      · exact .same _
    | read len => exact .read len
    | _ => exact .same _
  rw [step_eq, Ending.apply_receiver]
  split_ifs
  · exact .error hmove
  · exact hmove

end TCPConnection

/-- The bytes that a call writes to the inbound stream. A read only removes bytes; any other call
only appends some. -/
def ConnectionOp.written (op : ConnectionOp) (r r' : TCPReceiver) : List UInt8 :=
  match op with
  | .read _ => []
  | _ => r'.streamOut.buffer.drop r.streamOut.buffer.length

theorem ConnectionOp.written_self (op : ConnectionOp) (r : TCPReceiver) : op.written r r = [] := by
  unfold ConnectionOp.written
  split
  · rfl
  · exact List.drop_length

namespace ReceiverMove

variable {r r' : TCPReceiver} {op : ConnectionOp} {S written : List UInt8} {isn : WrappingInt32}

theorem wellFormed (hmove : ReceiverMove r op r') (h : r.reassembler.WellFormed) :
    r'.reassembler.WellFormed := by
  induction hmove with
  | same => exact h
  | segment stale seg => exact r.step_wellFormed (.segmentReceived seg) h
  | read len => exact r.step_wellFormed (.read len) h
  | error _ ih => exact ih.setError

theorem formed (hmove : ReceiverMove r op r') (h : r.reassembler.Formed) :
    r'.reassembler.Formed := by
  induction hmove with
  | same => exact h
  | segment stale seg => exact r.step_formed (.segmentReceived seg) h
  | read len => exact r.step_formed (.read len) h
  | error _ ih => exact ih.imp (fun hwf => hwf.setError) fun hzero => hzero

/-- **The receiver keeps working on its stream** if an arriving segment belongs to it. -/
theorem tracks (hmove : ReceiverMove r op r') (h : r.Tracks S isn written)
    (hseg : ∀ stale seg, op = .segmentReceived stale seg →
      ∃ a, SegmentOf S isn a seg ∧ r.streamOut.nwritten < a + 2 ^ 31 ∧
        a < r.streamOut.nwritten + 2 ^ 31) :
    r'.Tracks S isn (written ++ op.written r r') := by
  induction hmove with
  | same op =>
    rw [op.written_self, List.append_nil]
    exact h
  | segment stale seg =>
    obtain ⟨a, ha, hlo, hhi⟩ := hseg stale seg rfl
    exact h.segmentReceived ha hlo hhi
  | read len =>
    simp only [ConnectionOp.written, List.append_nil]
    exact h.popOutput len
  | @error op r' _ ih =>
    have hsame : op.written r (r'.mapStreamOut ByteStream.setError) = op.written r r' := by
      unfold ConnectionOp.written
      split <;> rfl
    rw [hsame]
    exact (ih hseg).setError

/-- A FIN position is recorded only for a segment with FIN. -/
theorem finAbsSeq_ne_zero (hmove : ReceiverMove r op r') (hfin : r'.finAbsSeq ≠ 0) :
    r.finAbsSeq ≠ 0 ∨
      ∃ stale seg, op = .segmentReceived stale seg ∧ seg.header.fin = true := by
  induction hmove with
  | same => exact Or.inl hfin
  | segment stale seg =>
    rcases r.segmentReceived_cases seg with ⟨-, hr⟩ | ⟨i, -, ⟨-, hr⟩ | ⟨-, hr⟩⟩
    · rw [hr] at hfin
      exact Or.inl hfin
    · rw [hr] at hfin
      exact Or.inl hfin
    · -- the segment was accepted: the position is the old one, or that of its FIN
      rw [hr] at hfin
      unfold TCPReceiver.accept at hfin
      dsimp only at hfin
      split_ifs at hfin with hfill
      · simp only [Bool.and_eq_true] at hfill
        exact Or.inr ⟨stale, seg, rfl, hfill.2⟩
      · exact Or.inl hfin
  | read => exact Or.inl hfin
  | error _ ih => exact ih hfin

/-- Nothing that was written, read or ended is taken back, and neither the initial sequence number
nor an error is forgotten. -/
theorem progress (hmove : ReceiverMove r op r') (hwf : r.reassembler.WellFormed) :
    TCPReceiver.Progress r r' ∧ (r.isn.isSome = true → r'.isn.isSome = true) := by
  induction hmove with
  | same => exact ⟨TCPReceiver.Progress.refl r, fun h => h⟩
  | segment stale seg =>
    refine ⟨TCPReceiver.segmentReceived_progress hwf seg, fun hisn => ?_⟩
    obtain ⟨i, hi⟩ := Option.isSome_iff_exists.mp hisn
    rw [TCPReceiver.segmentReceived_isn, TCPReceiver.learnIsn_of_isSome hi]
    rfl
  | read len =>
    exact ⟨⟨rfl, le_refl _, Nat.le_add_right _ _, fun he => he, fun he => he⟩, fun h => h⟩
  | error _ ih =>
    obtain ⟨hprogress, hisn⟩ := ih
    exact ⟨⟨hprogress.capacity_eq, hprogress.nwritten_le, hprogress.nread_le,
      hprogress.inputEnded, fun _ => rfl⟩, hisn⟩

/-- **No acknowledgment is taken back.** -/
theorem oldAbsAckno_le {S' written' : List UInt8} (hmove : ReceiverMove r op r')
    (h : r.Tracks S isn written) (h' : r'.Tracks S' isn written') :
    r.oldAbsAckno ≤ r'.oldAbsAckno := by
  obtain ⟨hprogress, hisn⟩ := hmove.progress h.assembles.wellFormed
  unfold TCPReceiver.oldAbsAckno
  -- before the SYN nothing is acknowledged
  by_cases hknown : r.isn.isSome = true
  · rw [if_pos hknown, if_pos (hisn hknown)]
    exact h.absAckno_le h' hprogress
  · rw [if_neg hknown]
    exact Nat.zero_le _

end ReceiverMove

end Sponge
