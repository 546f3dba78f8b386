import Mathlib.Tactic
import Sponge.TCPConnection.Calls

/-!
# Finished connections

An inactive connection ignores segments and time, but `connect`, `write` and `end_input_stream` do
not test the active flag: they call `fill_window` and forward what it sends. So a finished
connection stays inactive, and it stays silent as long as its application makes only calls that
leave the sender nothing to send.

## Main definitions

* `TCPConnection.Silent`: the call leaves the connection inactive and appends no segment
* `TCPConnection.LeavesQuiet`: the call leaves the sender nothing to send

## Main results

* `TCPConnection.Sound.silent_iff`: one call of a finished connection
* `finished_connection_silent_iff`: the runs in which it stays silent
* `finished_connection_sends_fin`: after a RST, `end_input_stream` still sends a FIN
-/

namespace Sponge

namespace TCPSender

/-- Nothing is waiting to be sent, and `fill_window` sends nothing. -/
def Quiet (s : TCPSender) : Prop :=
  s.segmentsOut = [] ∧ s.synSent = true ∧ s.idle = true

instance (s : TCPSender) : Decidable s.Quiet :=
  inferInstanceAs (Decidable (_ ∧ _ ∧ _))

/-- A sender is quiet exactly if nothing is waiting after `fill_window`. -/
theorem Bookkeeping.quiet_iff {s : TCPSender} (h : s.Bookkeeping) :
    s.Quiet ↔ s.fillWindow.segmentsOut = [] := by
  rcases h.fillWindow_cases with ⟨hunsent, he⟩ | ⟨hsyn, hidle, heq⟩ | ⟨-, hidle, new, hne, he, -⟩
  · -- the SYN
    refine iff_of_false (fun hq => ?_) (by simp [he.segmentsOut_eq])
    rw [hq.2.1] at hunsent
    cases hunsent
  · rw [heq]
    exact ⟨fun hq => hq.1, fun hnil => ⟨hnil, hsyn, hidle⟩⟩
  · -- segments of the stream
    refine iff_of_false (fun hq => ?_) ?_
    · rw [hq.2.2] at hidle
      cases hidle
    · rw [he.segmentsOut_eq]
      exact fun hnil => hne (List.append_eq_nil_iff.mp hnil).2

end TCPSender

namespace TCPConnection

variable {c : TCPConnection}

/-- **The call is silent**: the connection is inactive after it, and no segment was appended. -/
def Silent (c : TCPConnection) (op : ConnectionOp) : Prop :=
  (c.step op).active = false ∧ (op ≠ .popSegment → (c.step op).segmentsOut = c.segmentsOut)

/-- The call leaves the sender nothing to send. Arriving segments and time do so in any case. -/
def LeavesQuiet (c : TCPConnection) : ConnectionOp → Prop
  | .connect => c.sender.Quiet
  | .write data =>
    data = [] ∨ (c.sender.mapStreamIn fun stream => (stream.write data).1).Quiet
  | .endInputStream => (c.sender.mapStreamIn ByteStream.endInput).Quiet
  | _ => True

instance (c : TCPConnection) : ∀ op, Decidable (c.LeavesQuiet op)
  | .connect => inferInstanceAs (Decidable c.sender.Quiet)
  | .write data => inferInstanceAs (Decidable (data = [] ∨ TCPSender.Quiet _))
  | .endInputStream => inferInstanceAs (Decidable (TCPSender.Quiet _))
  | .tick _ _ => isTrue trivial
  | .segmentReceived _ _ => isTrue trivial
  | .read _ => isTrue trivial
  | .popSegment => isTrue trivial

/-- Sending never activates a connection. -/
theorem sendSenderSegments_inactive (hactive : c.active = false) :
    c.sendSenderSegments.active = false := by
  rcases sendSenderSegments_active (c := c) with heq | ⟨heq, -⟩
  · exact heq.trans hactive
  · exact heq

/-- `fill_window` and sending are silent exactly if the sender is quiet. -/
theorem fillWindow_silent_iff (h : c.sender.Bookkeeping) (hactive : c.active = false) :
    ((c.mapSender TCPSender.fillWindow).sendSenderSegments.active = false ∧
        (c.mapSender TCPSender.fillWindow).sendSenderSegments.segmentsOut = c.segmentsOut) ↔
      c.sender.Quiet := by
  have hoff : (c.mapSender TCPSender.fillWindow).sendSenderSegments.active = false :=
    sendSenderSegments_inactive hactive
  rw [h.quiet_iff, sendSenderSegments_segmentsOut]
  simp [hoff]

/-- **One call of a finished connection.** -/
theorem Sound.silent_iff (h : c.Sound) (hactive : c.active = false) (op : ConnectionOp) :
    c.Silent op ↔ c.LeavesQuiet op := by
  unfold Silent
  cases op with
  | connect =>
    rw [forall_prop_of_true (by simp)]
    exact fillWindow_silent_iff h.bookkeeping hactive
  | write data =>
    rw [forall_prop_of_true (by simp)]
    simp only [TCPConnection.step, TCPConnection.write, LeavesQuiet, List.length_eq_zero_iff]
    by_cases hdata : data = []
    · -- a write of nothing returns at once
      simp [hdata, hactive]
    · rw [if_neg hdata]
      have hb := h.bookkeeping.keeps
        (c.sender.mapStreamIn_keeps fun stream => (stream.write data).1)
        (h.bookkeeping.wellFormed.write data)
      rw [or_iff_right hdata]
      exact fillWindow_silent_iff
        (c := c.mapSender (TCPSender.mapStreamIn fun stream => (stream.write data).1)) hb hactive
  | endInputStream =>
    have hb := h.bookkeeping.keeps (c.sender.mapStreamIn_keeps ByteStream.endInput)
      h.bookkeeping.wellFormed.endInput
    rw [forall_prop_of_true (by simp)]
    exact fillWindow_silent_iff
      (c := c.mapSender (TCPSender.mapStreamIn ByteStream.endInput)) hb hactive
  | tick stale ms => simp [TCPConnection.step, TCPConnection.tick, LeavesQuiet, hactive]
  | segmentReceived stale seg =>
    simp [TCPConnection.step, TCPConnection.segmentReceived, LeavesQuiet, hactive]
  | read len => simp [TCPConnection.step, LeavesQuiet, hactive]
  | popSegment => simp [TCPConnection.step, LeavesQuiet, hactive]

/-- A finished connection stays finished. -/
theorem step_inactive (hactive : c.active = false) (op : ConnectionOp) :
    (c.step op).active = false := by
  rw [step_eq]
  cases c.ending op with
  | rest => exact hactive
  | send => exact sendSenderSegments_inactive hactive
  | reset stale => rfl
  | giveUp stale => exact sendSenderSegments_inactive rfl
  | refuse => rfl

/-- A connection that is active after a call was active before it. -/
theorem active_of_step {op : ConnectionOp} (hactive : (c.step op).active = true) :
    c.active = true := by
  by_contra hf
  rw [step_inactive (by simpa using hf)] at hactive
  cases hactive

end TCPConnection

/-- **When a finished connection stays silent.** From every reachable inactive state, all later
calls leave the connection inactive and append no segment exactly if each of them leaves the sender
nothing to send: `connect`, a nonempty `write` and `end_input_stream` are silent only if no segment
is waiting and `fill_window` is idle on the stream as the call leaves it. -/
theorem finished_connection_silent_iff (cfg : TCPConfig) (randomIsn : WrappingInt32)
    (ops later : List ConnectionOp) :
    let c := Run.exec TCPConnection.step (TCPConnection.new cfg randomIsn) ops
    c.active = false →
      (Run.Always TCPConnection.step TCPConnection.Silent c later ↔
        Run.Always TCPConnection.step TCPConnection.LeavesQuiet c later) := by
  intro c hactive
  exact Run.always_congr (I := fun c => c.Sound ∧ c.active = false)
    (fun _ op h => ⟨h.1.step op, TCPConnection.step_inactive h.2 op⟩)
    (fun _ op h => h.1.silent_iff h.2 op)
    ⟨TCPConnection.sound_run cfg randomIsn ops, hactive⟩

/-- A connection whose SYN was refused stays silent, also when it is told to connect again. -/
theorem finished_connection_silent_iff_refused :
    let c := Run.exec TCPConnection.step
      (TCPConnection.new { recvCapacity := 4, sendCapacity := 4 } ⟨0⟩)
      [.connect, .segmentReceived {} { header := { ack := true, ackno := ⟨1⟩, rst := true } }]
    c.active = false ∧
      Run.Always TCPConnection.step TCPConnection.Silent c
        [.connect, .write [1, 2], .tick {} 1000, .endInputStream] := by
  intro c
  have hactive : c.active = false := by decide
  exact ⟨hactive, (finished_connection_silent_iff _ _ _ _ hactive).mpr (by decide)⟩

/-- **A finished connection that is not silent.** After the handshake a RST ends the connection; the
application then ends its input, as the socket does, and a FIN is appended. -/
theorem finished_connection_sends_fin :
    let c := Run.exec TCPConnection.step
      (TCPConnection.new { recvCapacity := 4, sendCapacity := 4 } ⟨0⟩)
      [.connect,
        .segmentReceived {} { header := { syn := true, ack := true, ackno := ⟨1⟩, win := 4 } },
        .segmentReceived {}
          { header := { seqno := ⟨1⟩, ack := true, ackno := ⟨1⟩, rst := true, win := 4 } }]
    c.active = false ∧
      ¬ Run.Always TCPConnection.step TCPConnection.Silent c [.endInputStream] := by
  refine ⟨by decide, ?_⟩
  rintro ⟨⟨-, hsilent⟩, -⟩
  exact absurd (hsilent (by simp)) (by decide)

end Sponge
