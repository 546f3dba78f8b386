import Mathlib.Tactic
import Sponge.TCPConnection.Calls
import Sponge.TCPReceiver.Bounds

/-!
# The accesses of a connection

A connection hands arriving segments to its receiver, whose reassembler takes stream indices modulo
its capacity. `segmentReceivedChecked` is `segment_received` with the accesses below it checked. A
connection with any receive capacity at all makes no access out of range and no division by zero,
whatever happens to it. Without receive capacity it divides by zero exactly if the receiver is given
a segment that repeats the initial sequence number and has two sequence numbers or more.

## Main definitions

* `TCPConnection.segmentReceivedChecked`: `segment_received` with the accesses below it checked
* `TCPConnection.InBounds`: nothing goes wrong in a call
* `TCPReceiver.Guarded capacity`: the receiver has capacity, or nothing has reached its reassembler

## Main results

* `TCPConnection.segmentReceivedChecked_path`: which paths make accesses
* `TCPConnection.guarded_run`: runs in which nothing goes wrong keep the receiver guarded
* `TCPConnection.segmentReceivedChecked_of_ok`: if nothing goes wrong, the checks change nothing
-/

namespace Sponge

open Checked (Fault)

namespace TCPReceiver

variable {r : TCPReceiver} {capacity : ℕ} {seg : TCPSegment}

/-- The receiver has capacity and a well-formed reassembler, or it has none and nothing has reached
the reassembler. -/
def Guarded (capacity : ℕ) (r : TCPReceiver) : Prop :=
  (capacity ≠ 0 ∧ r.reassembler.WellFormed) ∨ (capacity = 0 ∧ r.Blocked)

theorem guarded_new (capacity : ℕ) : (new capacity).Guarded capacity := by
  rcases Nat.eq_zero_or_pos capacity with rfl | hpos
  · exact Or.inr ⟨rfl, blocked_new⟩
  · exact Or.inl ⟨hpos.ne', StreamReassembler.wellFormed_new hpos⟩

theorem Guarded.inBounds_iff (h : r.Guarded capacity) (op : ReceiverCall) :
    r.InBounds op ↔ (capacity = 0 → r.NoStraddling op) := by
  rcases h with ⟨hne, hwf⟩ | ⟨rfl, hblocked⟩
  · exact iff_of_true (r.inBounds_of_wellFormed hwf op) fun hzero => absurd hzero hne
  · rw [hblocked.inBounds_iff, forall_prop_of_true rfl]

/-- A call in which nothing goes wrong keeps the receiver guarded. -/
theorem Guarded.step (h : r.Guarded capacity) (op : ReceiverCall) (hin : r.InBounds op) :
    (r.step op).Guarded capacity := by
  rcases h with ⟨hne, hwf⟩ | ⟨hzero, hblocked⟩
  · exact Or.inl ⟨hne, r.step_wellFormed op hwf⟩
  · exact Or.inr ⟨hzero, hblocked.step op ((hblocked.inBounds_iff op).mp hin)⟩

theorem Guarded.setError (h : r.Guarded capacity) :
    (r.mapStreamOut ByteStream.setError).Guarded capacity := by
  rcases h with ⟨hne, hwf⟩ | ⟨hzero, hblocked⟩
  · exact Or.inl ⟨hne, hwf.setError⟩
  · exact Or.inr ⟨hzero, hblocked.capacity, hblocked.output_capacity, hblocked.nwritten,
      hblocked.finAbsSeq⟩

/-- **If nothing goes wrong, the checks change nothing.** -/
theorem Guarded.segmentReceivedChecked_eq (h : r.Guarded capacity)
    (hin : r.InBounds (.segmentReceived seg)) :
    r.segmentReceivedChecked seg = .ok (r.segmentReceived seg) := by
  rcases h with ⟨-, hwf⟩ | ⟨-, hblocked⟩
  · exact segmentReceivedChecked_of_wellFormed hwf seg
  · -- nothing is passed on to a reassembler without capacity
    have hnone := (hblocked.inBounds_iff _).mp hin
    rw [NoStraddling, ← hblocked.passedOn_isSome_iff, Option.not_isSome_iff_eq_none] at hnone
    rw [TCPReceiver.segmentReceivedChecked_eq, hnone]

end TCPReceiver

namespace TCPConnection

variable {c : TCPConnection} {stale seg : TCPSegment} {capacity : ℕ}

/-! ## The checked function -/

/-- The receiver takes a segment. -/
def receiveChecked (c : TCPConnection) (seg : TCPSegment) : Except Fault TCPConnection := do
  let (receiver, _) ← c.receiver.segmentReceivedChecked seg
  return { c with receiver := receiver }

/-- The last part of `segment_received`; the sender and the ending make no access. -/
def exchangeChecked (c : TCPConnection) (stale : TCPSegment) (seg : TCPSegment) :
    Except Fault TCPConnection := do
  let c ← c.receiveChecked seg
  let c := c.mapSender fun s => s.ackReceived stale seg.header.ackno seg.header.win
  let c :=
    if c.sender.stream.bufferEmpty && seg.lengthInSequenceSpace != 0 then
      c.mapSender TCPSender.sendEmptySegment
    else c
  if seg.header.rst then
    return (c.mapSender TCPSender.sendEmptySegment).uncleanShutdown stale
  else return c.sendSenderSegments

/-- `segment_received` with every modulo and every access below it checked. -/
def segmentReceivedChecked (c : TCPConnection) (stale : TCPSegment) (seg : TCPSegment) :
    Except Fault TCPConnection :=
  if !c.active then return c
  else
    let c := { c with timeSinceLastSegmentReceived := 0 }
    if c.closed then
      if !seg.header.syn then return c
      else do
        let c ← c.receiveChecked seg
        return c.connect
    else if c.synSent then
      if seg.payload.length ≠ 0 then return c
      else if !seg.header.ack then
        if seg.header.syn then do
          let c ← c.receiveChecked seg
          return c.mapSender TCPSender.sendEmptySegment
        else return c
      else if seg.header.rst then return { c.setErrors with active := false }
      else c.exchangeChecked stale seg
    else c.exchangeChecked stale seg

/-- **Which paths make accesses**: those on which the receiver takes the segment. -/
theorem segmentReceivedChecked_path (c : TCPConnection) (stale seg : TCPSegment) :
    c.segmentReceivedChecked stale seg =
      match c.path seg with
      | .inactive => .ok c
      | .ignored => .ok c.heard
      | .answered => connect <$> c.heard.receiveChecked seg
      | .simultaneous => mapSender TCPSender.sendEmptySegment <$> c.heard.receiveChecked seg
      | .refused => .ok { c.heard.setErrors with active := false }
      | .exchanged => c.heard.exchangeChecked stale seg := by
  unfold segmentReceivedChecked path
  -- the tests of the source do not read the clock
  change (if _ then _ else if c.closed = true then _ else if c.synSent = true then _ else _) = _
  split_ifs <;> rfl

/-- If nothing goes wrong in the receiver, the checks change nothing. -/
theorem segmentReceivedChecked_of_ok
    (h : c.receiver.segmentReceivedChecked seg = .ok (c.receiver.segmentReceived seg)) :
    c.segmentReceivedChecked stale seg = .ok (c.segmentReceived stale seg) := by
  have hreceive : c.heard.receiveChecked seg =
      .ok (c.heard.mapReceiver fun r => (r.segmentReceived seg).1) := by
    change c.receiver.segmentReceivedChecked seg >>= _ = _
    rw [h]
    rfl
  rw [segmentReceivedChecked_path, segmentReceived_path]
  cases c.path seg with
  | inactive => rfl
  | ignored => rfl
  | answered =>
    dsimp only
    rw [hreceive]
    rfl
  | simultaneous =>
    dsimp only
    rw [hreceive]
    rfl
  | refused => rfl
  | exchanged =>
    dsimp only
    unfold exchangeChecked exchange
    rw [hreceive]
    -- what follows is the same on both sides, with the test for RST outside of `Except.ok`
    change (if seg.header.rst then _ else _) = Except.ok (if seg.header.rst then _ else _)
    by_cases hrst : seg.header.rst = true
    · rw [if_pos hrst, if_pos hrst]
      rfl
    · rw [if_neg hrst, if_neg hrst]
      rfl

/-- What goes wrong in the receiver, goes wrong in the connection. -/
theorem segmentReceivedChecked_of_error {fault : Fault}
    (h : c.receiver.segmentReceivedChecked seg = .error fault)
    (hpath : c.path seg = .answered ∨ c.path seg = .simultaneous ∨ c.path seg = .exchanged) :
    c.segmentReceivedChecked stale seg = .error fault := by
  have hreceive : c.heard.receiveChecked seg = .error fault := by
    change c.receiver.segmentReceivedChecked seg >>= _ = _
    rw [h]
    rfl
  rw [segmentReceivedChecked_path]
  rcases hpath with hpath | hpath | hpath <;> rw [hpath] <;> dsimp only
  · rw [hreceive]
    rfl
  · rw [hreceive]
    rfl
  · unfold exchangeChecked
    rw [hreceive]
    rfl

/-! ## Runs -/

/-- No modulo by zero is evaluated and nothing is accessed outside its bounds. -/
def InBounds (c : TCPConnection) : ConnectionOp → Prop
  | .segmentReceived stale seg => (c.segmentReceivedChecked stale seg).isOk = true
  | _ => True

instance (c : TCPConnection) : ∀ op, Decidable (c.InBounds op)
  | .segmentReceived stale seg =>
    inferInstanceAs (Decidable ((c.segmentReceivedChecked stale seg).isOk = true))
  | .connect => isTrue trivial
  | .write _ => isTrue trivial
  | .endInputStream => isTrue trivial
  | .tick _ _ => isTrue trivial
  | .read _ => isTrue trivial
  | .popSegment => isTrue trivial

/-- Where the receiver takes the segment, nothing goes wrong in it either. -/
theorem InBounds.receiver (hin : c.InBounds (.segmentReceived stale seg))
    (hpath : c.path seg = .answered ∨ c.path seg = .simultaneous ∨ c.path seg = .exchanged) :
    c.receiver.InBounds (.segmentReceived seg) := by
  cases hchecked : c.receiver.segmentReceivedChecked seg with
  | ok p =>
    rw [TCPReceiver.InBounds, hchecked]
    rfl
  | error fault =>
    -- the connection would fail with it
    rw [InBounds, segmentReceivedChecked_of_error hchecked hpath] at hin
    cases hin

theorem InBounds.guarded_received {op : ConnectionOp} (hin : c.InBounds op)
    (h : c.receiver.Guarded capacity) : (c.received op).Guarded capacity := by
  cases op with
  | segmentReceived stale seg =>
    cases hpath : c.path seg with
    | answered =>
      simp only [received, hpath]
      exact h.step _ (hin.receiver (Or.inl hpath))
    | simultaneous =>
      simp only [received, hpath]
      exact h.step _ (hin.receiver (Or.inr (Or.inl hpath)))
    | exchanged =>
      rw [received_exchanged hpath]
      exact h.step _ (hin.receiver (Or.inr (Or.inr hpath)))
    | _ =>
      simp only [received, hpath]
      exact h
  | read len => exact h.step (.read len) trivial
  | _ => exact h

theorem InBounds.guarded_step {op : ConnectionOp} (hin : c.InBounds op)
    (h : c.receiver.Guarded capacity) : (c.step op).receiver.Guarded capacity := by
  have hreceived := hin.guarded_received h
  -- the ending of a call does no more to the receiver than set the error of its stream
  rw [step_eq, Ending.apply_receiver]
  split_ifs
  · exact hreceived.setError
  · exact hreceived

/-- **Runs in which nothing goes wrong keep the receiver guarded.** -/
theorem guarded_run {cfg : TCPConfig} {randomIsn : WrappingInt32} {ops : List ConnectionOp}
    (hin : Run.Always step InBounds (new cfg randomIsn) ops) :
    (Run.exec step (new cfg randomIsn) ops).receiver.Guarded cfg.recvCapacity :=
  Run.invariant (I := fun c : TCPConnection => c.receiver.Guarded cfg.recvCapacity)
    (fun _ _ h hop => hop.guarded_step h) (TCPReceiver.guarded_new cfg.recvCapacity) hin

end TCPConnection

end Sponge
