import Mathlib.Tactic
import Sponge.Foundations.Run
import Sponge.TCPConnection.Transmission
import Sponge.TCPConnection.Reception

/-!
# Two endpoints and a network

Two connections are joined by a network that may lose, duplicate, delay and reorder segments, but
neither forges nor alters them: whatever was taken from the outbound queue of one endpoint may be
delivered to the other at any later time, any number of times. The applications call whatever they
like, except that they write less than `2 ^ 31 - 2` bytes, and nothing after the end of their input.

In every state so reached, the bytes written to an inbound stream are a prefix of the bytes that the
other endpoint accepted, and all of them once the inbound stream has ended.

## Main definitions

* `Endpoint`: a connection with its history
* `Network`, `NetworkEvent`, `Network.step`: two endpoints and what may happen to them
* `Link x y`: the stream of `x` on its way to `y`

## Main results

* `Link.sender_step`, `Link.receiver_step`: what one event at either end preserves
* `end_to_end_stream_safety`: the streams arrive unaltered
-/

namespace Sponge

/-- An endpoint: a connection with its history. -/
structure Endpoint where
  conn : TCPConnection
  /-- the bytes that `write` has accepted -/
  accepted : List UInt8
  /-- `end_input_stream` has been called -/
  ended : Bool
  /-- the bytes ever written to the inbound stream -/
  delivered : List UInt8
  /-- the segments taken from `segments_out()`, which the network may deliver -/
  wire : List TCPSegment
  deriving DecidableEq, Repr

namespace Endpoint

def new (cfg : TCPConfig) (randomIsn : WrappingInt32) : Endpoint where
  conn := TCPConnection.new cfg randomIsn
  accepted := []
  ended := false
  delivered := []
  wire := []

/-- The segments that an event puts on the wire. -/
def sentBy (e : Endpoint) : ConnectionOp → List TCPSegment
  | .popSegment => e.conn.segmentsOut.head?.toList
  | _ => []

/-- One event at an endpoint, recorded. -/
def step (e : Endpoint) (op : ConnectionOp) : Endpoint where
  conn := e.conn.step op
  accepted := e.accepted ++ e.conn.acceptedBy op
  ended := e.ended || decide (op = .endInputStream)
  delivered := e.delivered ++ op.written e.conn.receiver (e.conn.step op).receiver
  wire := e.wire ++ e.sentBy op

/-- What may happen to an endpoint: its application does not write after the end of its input and
writes less than `2 ^ 31 - 2` bytes in total, and only segments of its peer arrive. -/
def Allowed (e peer : Endpoint) : ConnectionOp → Prop
  | .write data =>
    e.ended = false ∧ e.accepted.length + (e.conn.write data).2 < 2 ^ 31 - 2
  | .segmentReceived _ seg => seg ∈ peer.wire
  | _ => True

instance (e peer : Endpoint) : ∀ op, Decidable (e.Allowed peer op)
  | .write _ => inferInstanceAs (Decidable (_ ∧ _))
  | .segmentReceived _ seg => inferInstanceAs (Decidable (seg ∈ peer.wire))
  | .connect => isTrue trivial
  | .endInputStream => isTrue trivial
  | .tick _ _ => isTrue trivial
  | .read _ => isTrue trivial
  | .popSegment => isTrue trivial

/-- What goes to the wire was in the outbound queue. -/
theorem mem_segmentsOut_of_sentBy (e : Endpoint) {op : ConnectionOp} {seg : TCPSegment}
    (h : seg ∈ e.sentBy op) : seg ∈ e.conn.segmentsOut := by
  cases op with
  | popSegment =>
    simp only [sentBy, Option.mem_toList] at h
    exact List.mem_of_mem_head? h
  | _ => cases h

/-- An endpoint keeps account of the end of its input. -/
theorem inputEnded_step {e : Endpoint} (hsound : e.conn.Sound)
    (h : e.conn.sender.stream.inputEnded = e.ended) (op : ConnectionOp) :
    (e.step op).conn.sender.stream.inputEnded = (e.step op).ended := by
  change (e.conn.step op).sender.stream.inputEnded = (e.ended || decide (op = .endInputStream))
  rw [hsound.step_inputEnded op, h]

/-- **The stream of `x` arrives at `y` unaltered**: what was written to the inbound stream is a
prefix of what was accepted, and all of it, with the end of the input, once the inbound stream has
ended. -/
def Delivers (x y : Endpoint) : Prop :=
  y.delivered <+: x.accepted ∧
    (y.conn.receiver.streamOut.inputEnded = true → y.delivered = x.accepted ∧ x.ended = true)

end Endpoint

/-- Two endpoints. -/
structure Network where
  a : Endpoint
  b : Endpoint
  deriving DecidableEq, Repr

/-- An event at one of the endpoints. -/
inductive NetworkEvent where
  | atA (op : ConnectionOp)
  | atB (op : ConnectionOp)
  deriving DecidableEq, Repr

namespace Network

def new (cfgA cfgB : TCPConfig) (randomIsnA randomIsnB : WrappingInt32) : Network where
  a := Endpoint.new cfgA randomIsnA
  b := Endpoint.new cfgB randomIsnB

def step (n : Network) : NetworkEvent → Network
  | .atA op => { n with a := n.a.step op }
  | .atB op => { n with b := n.b.step op }

def Allowed (n : Network) : NetworkEvent → Prop
  | .atA op => n.a.Allowed n.b op
  | .atB op => n.b.Allowed n.a op

instance (n : Network) : ∀ e, Decidable (n.Allowed e)
  | .atA op => inferInstanceAs (Decidable (n.a.Allowed n.b op))
  | .atB op => inferInstanceAs (Decidable (n.b.Allowed n.a op))

end Network

/-! ## A stream on its way -/

/-- **The stream of `x` on its way to `y`**: `x` transmits what its application gave it, everything
on the wire belongs to that stream, and the receiver of `y` works on it. A FIN is recorded there
only if it was sent. -/
structure Link (x y : Endpoint) : Prop where
  sound : x.conn.Sound
  transmits : x.conn.Transmits x.accepted
  wire : ∀ seg ∈ x.wire, TCPSender.Sent x.accepted x.conn.sender seg
  total : x.accepted.length < 2 ^ 31 - 2
  ended_eq : x.conn.sender.stream.inputEnded = x.ended
  tracks : y.conn.receiver.Tracks x.accepted x.conn.sender.isn y.delivered
  fin : y.conn.receiver.finAbsSeq ≠ 0 → x.conn.sender.finSent = true

namespace Link

variable {x y : Endpoint} {op : ConnectionOp}

theorem link_new (cfgX cfgY : TCPConfig) (isnX isnY : WrappingInt32)
    (hcapacity : 1 ≤ cfgY.recvCapacity) :
    Link (Endpoint.new cfgX isnX) (Endpoint.new cfgY isnY) where
  sound := TCPConnection.sound_new cfgX isnX
  transmits := TCPConnection.transmits_new cfgX isnX
  wire := by simp [Endpoint.new]
  total := by simp [Endpoint.new]
  ended_eq := rfl
  tracks := TCPReceiver.tracks_new _ _ hcapacity
  fin := fun hfin => absurd rfl hfin

theorem inputEnded_of_write (h : Link x y) (hop : x.Allowed y op) (data : List UInt8)
    (heq : op = .write data) : x.conn.sender.stream.inputEnded = false := by
  subst heq
  rw [h.ended_eq]
  exact hop.1

/-- After FIN nothing is accepted any more. -/
theorem acceptedBy_eq_nil (h : Link x y) (hop : x.Allowed y op)
    (hfin : x.conn.sender.finSent = true) : x.conn.acceptedBy op = [] := by
  cases op with
  | write data =>
    have hended := (ByteStream.eof_iff.mp (h.transmits.carries.finished hfin)).1
    rw [h.ended_eq, hop.1] at hended
    cases hended
  | _ => rfl

/-- What was sent stays a segment of the stream when the stream grows. -/
theorem sent_step (h : Link x y) (hop : x.Allowed y op) {seg : TCPSegment}
    (hseg : TCPSender.Sent x.accepted x.conn.sender seg) :
    TCPSender.Sent (x.step op).accepted (x.step op).conn.sender seg := by
  refine TCPSender.Sent.mono ?_ (h.transmits.step_extends op)
  change TCPSender.Sent (x.accepted ++ x.conn.acceptedBy op) x.conn.sender seg
  -- before FIN the stream may grow, after it nothing is accepted
  cases hfin : x.conn.sender.finSent with
  | false => exact hseg.append hfin
  | true =>
    rw [h.acceptedBy_eq_nil hop hfin, List.append_nil]
    exact hseg

/-- **An event at the sending end.** -/
theorem sender_step (h : Link x y) (hop : x.Allowed y op) : Link (x.step op) y := by
  have hext := h.transmits.step_extends op
  refine ⟨h.sound.step op, ?_, ?_, ?_, Endpoint.inputEnded_step h.sound h.ended_eq op, ?_,
    fun hfin => hext.finSent (h.fin hfin)⟩
  · exact h.transmits.step h.sound op (h.inputEnded_of_write hop)
  · -- what was on the wire, and what was taken from the queue now
    intro seg hseg
    rcases List.mem_append.mp hseg with hm | hm
    · exact h.sent_step hop (h.wire seg hm)
    · exact h.sent_step hop (h.transmits.out seg (x.mem_segmentsOut_of_sentBy hm))
  · change (x.accepted ++ x.conn.acceptedBy op).length < 2 ^ 31 - 2
    rw [List.length_append]
    have htotal := h.total
    cases op with
    | write data =>
      have htake := List.length_take_le (x.conn.write data).2 data
      have hbound := hop.2
      simp only [TCPConnection.acceptedBy]
      omega
    | _ => exact htotal
  · change y.conn.receiver.Tracks (x.accepted ++ x.conn.acceptedBy op)
      (x.conn.step op).sender.isn y.delivered
    rw [hext.isn_eq]
    -- the stream grows only while no FIN has been recorded
    by_cases hfin : y.conn.receiver.finAbsSeq = 0
    · exact h.tracks.append hfin _
    · rw [h.acceptedBy_eq_nil hop (h.fin hfin), List.append_nil]
      exact h.tracks

/-- **An event at the receiving end.** A segment on the wire starts within `2 ^ 31` of what has been
written, since the whole stream is shorter than that. -/
theorem receiver_step (h : Link x y) (hop : y.Allowed x op) : Link x (y.step op) := by
  have hmove := y.conn.step_receiver op
  refine ⟨h.sound, h.transmits, h.wire, h.total, h.ended_eq, ?_, ?_⟩
  · refine hmove.tracks h.tracks ?_
    rintro stale seg rfl
    obtain ⟨a, ha, hseg, -⟩ := h.wire seg hop
    have hnext := h.transmits.carries.nextSeqno_le
    have hwritten : y.conn.receiver.streamOut.nwritten ≤ x.accepted.length :=
      h.tracks.assembles.nwritten_le
    have htotal := h.total
    exact ⟨a, hseg, by omega, by omega⟩
  · intro hfin
    rcases hmove.finAbsSeq_ne_zero hfin with hold | ⟨stale, seg, rfl, hf⟩
    · exact h.fin hold
    · obtain ⟨a, -, -, hsent⟩ := h.wire seg hop
      exact hsent hf

/-- What the receiver acknowledges is at most the whole stream. -/
theorem oldAbsAckno_le (h : Link x y) :
    y.conn.receiver.oldAbsAckno ≤ x.accepted.length + 2 := by
  have hwritten : y.conn.receiver.streamOut.nwritten ≤ x.accepted.length :=
    h.tracks.assembles.nwritten_le
  unfold TCPReceiver.oldAbsAckno
  rw [h.tracks.absAckno_eq]
  split_ifs <;> omega

/-- On a link the stream arrives unaltered. -/
theorem delivers (h : Link x y) : x.Delivers y := by
  have hass := h.tracks.assembles
  refine ⟨?_, fun hended => ?_⟩
  · rw [hass.written_eq]
    exact List.take_prefix _ _
  · obtain ⟨hfin, hall⟩ := h.tracks.inputEnded_iff.mp hended
    have hsent := h.transmits.carries.finished (h.fin hfin)
    refine ⟨?_, h.ended_eq.symm.trans (ByteStream.eof_iff.mp hsent).1⟩
    have hwritten : y.conn.receiver.reassembler.output.nwritten = x.accepted.length := hall
    rw [hass.written_eq, hwritten, List.take_length]

end Link

namespace Network

/-- Both streams are on their way. -/
def Linked (n : Network) : Prop :=
  Link n.a n.b ∧ Link n.b n.a

theorem Linked.step {n : Network} (h : n.Linked) {e : NetworkEvent} (he : n.Allowed e) :
    (n.step e).Linked := by
  cases e with
  | atA op => exact ⟨h.1.sender_step he, h.2.receiver_step he⟩
  | atB op => exact ⟨h.1.receiver_step he, h.2.sender_step he⟩

theorem linked_new (cfgA cfgB : TCPConfig) (isnA isnB : WrappingInt32)
    (hA : 1 ≤ cfgA.recvCapacity) (hB : 1 ≤ cfgB.recvCapacity) :
    (new cfgA cfgB isnA isnB).Linked :=
  ⟨Link.link_new cfgA cfgB isnA isnB hB, Link.link_new cfgB cfgA isnB isnA hA⟩

end Network

/-- **End-to-end stream safety.** Whatever the network loses, duplicates, delays and reorders, and
whatever the applications call, in every state reached the bytes ever written to the inbound stream
of one endpoint are a prefix of the bytes that `write` accepted at the other; once that inbound
stream has ended they are all of those bytes, and the other application has ended its input. -/
theorem end_to_end_stream_safety (cfgA cfgB : TCPConfig) (isnA isnB : WrappingInt32)
    (hA : 1 ≤ cfgA.recvCapacity) (hB : 1 ≤ cfgB.recvCapacity) (events : List NetworkEvent)
    (hallowed : Run.Always Network.step Network.Allowed (Network.new cfgA cfgB isnA isnB) events) :
    let n := Run.exec Network.step (Network.new cfgA cfgB isnA isnB) events
    n.a.Delivers n.b ∧ n.b.Delivers n.a := by
  intro n
  have hlinked : n.Linked :=
    Run.invariant (fun _ _ h he => h.step he) (Network.linked_new cfgA cfgB isnA isnB hA hB)
      hallowed
  exact ⟨hlinked.1.delivers, hlinked.2.delivers⟩

/-- After the handshake one byte is sent; the acknowledgment of the handshake is lost, and the byte
arrives twice. -/
theorem end_to_end_stream_safety_duplicated :
    let n := Run.exec Network.step
      (Network.new { recvCapacity := 4, sendCapacity := 4 } { recvCapacity := 4, sendCapacity := 4 }
        ⟨0⟩ ⟨9⟩)
      [.atA .connect, .atA .popSegment,
        .atB (.segmentReceived {} { header := { seqno := ⟨0⟩, syn := true } }), .atB .popSegment,
        .atA (.segmentReceived {}
          { header := { seqno := ⟨9⟩, syn := true, ack := true, ackno := ⟨1⟩, win := 4 } }),
        .atA (.write [7]), .atA .popSegment, .atA .popSegment,
        .atB (.segmentReceived {}
          { header := { seqno := ⟨1⟩, ack := true, ackno := ⟨10⟩, win := 4 }, payload := [7] }),
        .atB (.segmentReceived {}
          { header := { seqno := ⟨1⟩, ack := true, ackno := ⟨10⟩, win := 4 }, payload := [7] })]
    n.b.delivered = [7] ∧ n.a.Delivers n.b ∧ n.b.Delivers n.a :=
  ⟨by decide, end_to_end_stream_safety _ _ _ _ (by decide) (by decide) _ (by decide)⟩

end Sponge
