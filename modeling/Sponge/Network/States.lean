import Mathlib.Tactic
import Sponge.Network
import Sponge.TCPConnection.States

/-!
# The states that two endpoints reach

Two endpoints that are joined by a network keep each other in official states: neither sends payload
or FIN before its SYN is acknowledged, so that whatever carries payload or FIN acknowledges the SYN
of the other. Two kinds of arrivals lead out of these states all the same, a repeated acknowledgment
of the SYN that overtakes the SYN of the peer, and the FIN of a peer that finds the window filled
exactly by the end of the stream. No bound on the bytes written is needed.

## Main definitions

* `Endpoint.Conforms`: nothing is written after the end of the input, and nothing is forged
* `Endpoint.flight`: the segments that are queued for the network, or are on the wire
* `Acquainted x y`: what `y` has received of `x`, and what it has sent, as long as nothing of `x` is
  acknowledged

## Main results

* `Acquainted.sender_step`, `Acquainted.receiver_step`: what one event at either end preserves
* `official_states_iff`: the runs that reach official states only
* `unofficial_states_reached`: two runs that reach another one
-/

namespace Sponge

namespace Endpoint

variable {e : Endpoint} {op : ConnectionOp} {seg : TCPSegment}

/-- What may happen to an endpoint: its application does not write after the end of its input, and
only segments of its peer arrive. -/
def Conforms (e peer : Endpoint) : ConnectionOp → Prop
  | .write _ => e.ended = false
  | .segmentReceived _ seg => seg ∈ peer.wire
  | _ => True

instance (e peer : Endpoint) : ∀ op, Decidable (e.Conforms peer op)
  | .write _ => inferInstanceAs (Decidable (e.ended = false))
  | .segmentReceived _ seg => inferInstanceAs (Decidable (seg ∈ peer.wire))
  | .connect => isTrue trivial
  | .endInputStream => isTrue trivial
  | .tick _ _ => isTrue trivial
  | .read _ => isTrue trivial
  | .popSegment => isTrue trivial

/-- The segments that are queued for the network, and those that it may deliver. -/
def flight (e : Endpoint) : List TCPSegment :=
  e.conn.segmentsOut ++ e.wire

/-- What is in flight after an event was in flight before, or is appended by it. -/
theorem mem_flight_step (h : seg ∈ (e.step op).flight) :
    seg ∈ e.flight ∨ seg ∈ e.conn.appendedBy op := by
  have hout : (e.conn.step op).segmentsOut = e.conn.queue op ++ e.conn.appendedBy op := by
    rw [TCPConnection.step_eq, Ending.apply_segmentsOut, TCPConnection.appendedBy_eq]
    rfl
  rcases List.mem_append.mp h with hm | hm
  · change seg ∈ (e.conn.step op).segmentsOut at hm
    rw [hout] at hm
    rcases List.mem_append.mp hm with hm | hm
    · left
      refine List.mem_append_left _ ?_
      cases op with
      | popSegment => exact List.mem_of_mem_tail hm
      | _ => exact hm
    · exact Or.inr hm
  · rcases List.mem_append.mp hm with hm | hm
    · exact Or.inl (List.mem_append_right _ hm)
    · exact Or.inl (List.mem_append_left _ (e.mem_segmentsOut_of_sentBy hm))

end Endpoint

namespace Network

def Conforms (n : Network) : NetworkEvent → Prop
  | .atA op => n.a.Conforms n.b op
  | .atB op => n.b.Conforms n.a op

instance (n : Network) : ∀ e, Decidable (n.Conforms e)
  | .atA op => inferInstanceAs (Decidable (n.a.Conforms n.b op))
  | .atB op => inferInstanceAs (Decidable (n.b.Conforms n.a op))

/-- The event does not lead out of the official states. -/
def KeepsOfficial (n : Network) : NetworkEvent → Prop
  | .atA op => n.a.conn.KeepsOfficial op
  | .atB op => n.b.conn.KeepsOfficial op

instance (n : Network) : ∀ e, Decidable (n.KeepsOfficial e)
  | .atA op => inferInstanceAs (Decidable (n.a.conn.KeepsOfficial op))
  | .atB op => inferInstanceAs (Decidable (n.b.conn.KeepsOfficial op))

/-- Both endpoints are in an official state after the event. -/
def ReachesOfficial (n : Network) (e : NetworkEvent) : Prop :=
  (n.step e).a.conn.state.Official ∧ (n.step e).b.conn.state.Official

instance (n : Network) (e : NetworkEvent) : Decidable (n.ReachesOfficial e) :=
  inferInstanceAs (Decidable (_ ∧ _))

end Network

/-! ## What the receiver of the peer knows -/

namespace ReceiverMove

variable {r r' : TCPReceiver} {op : ConnectionOp}

/-- A receiver to which only bare segments come stays untouched. -/
theorem untouched (hmove : ReceiverMove r op r') (h : r.Untouched)
    (hseg : ∀ stale seg, op = .segmentReceived stale seg → seg.Bare) : r'.Untouched := by
  induction hmove with
  | same => exact h
  | segment stale seg => exact h.segmentReceived (hseg stale seg rfl)
  | read len => exact h.mapStreamOut (f := fun s => (s.read len).1) rfl rfl
  | error _ ih => exact (ih hseg).mapStreamOut rfl rfl

/-- A receiver learns the initial sequence number of the SYNs that come to it. -/
theorem isn (hmove : ReceiverMove r op r') {isn : WrappingInt32} (h : ∀ i ∈ r.isn, i = isn)
    (hseg : ∀ stale seg, op = .segmentReceived stale seg → seg.SynAt isn) :
    ∀ i ∈ r'.isn, i = isn := by
  induction hmove with
  | same => exact h
  | segment stale seg =>
    rw [TCPReceiver.segmentReceived_isn, TCPReceiver.learnIsn]
    split_ifs with hsyn
    · rw [Bool.and_eq_true] at hsyn
      intro i hi
      rw [← Option.mem_some_iff.mp hi, (hseg stale seg rfl hsyn.1).2, wrap_zero]
    · exact h
  | read => exact h
  | error _ ih => exact ih hseg

end ReceiverMove

/-- **`x` as its peer `y` knows it.** The SYNs of `x` in flight are its own, and `y` has learnt no
other initial sequence number. As long as nothing of `x` is acknowledged, `x` has sent nothing but
bare segments, the receiver of `y` is untouched, and whatever `y` has sent with payload or FIN
acknowledges the SYN of `x`. -/
structure Acquainted (x y : Endpoint) : Prop where
  regular : x.conn.Regular
  ended_eq : x.conn.sender.stream.inputEnded = x.ended
  syn : ∀ seg ∈ x.flight, seg.SynAt x.conn.sender.isn
  isn : ∀ isn ∈ y.conn.receiver.isn, isn = x.conn.sender.isn
  bare : x.conn.sender.Unacked → ∀ seg ∈ x.flight, seg.Bare
  untouched : x.conn.sender.Unacked → y.conn.receiver.Untouched
  acks : x.conn.sender.Unacked → ∀ seg ∈ y.flight, ¬ seg.Bare → seg.header.rst = false →
    seg.header.ackno = wrap 1 x.conn.sender.isn

namespace Acquainted

variable {x y : Endpoint} {op : ConnectionOp}

theorem acquainted_new (cfgX cfgY : TCPConfig) (isnX isnY : WrappingInt32) :
    Acquainted (Endpoint.new cfgX isnX) (Endpoint.new cfgY isnY) where
  regular := TCPConnection.regular_new cfgX isnX
  ended_eq := rfl
  syn := by simp [Endpoint.flight, Endpoint.new, TCPConnection.new]
  isn := by simp [Endpoint.new, TCPConnection.new, TCPReceiver.new]
  bare := by simp [Endpoint.flight, Endpoint.new, TCPConnection.new]
  untouched := fun _ => TCPReceiver.untouched_new _
  acks := by simp [Endpoint.flight, Endpoint.new, TCPConnection.new]

/-- What arrives from the peer is credible. -/
theorem credible (hxy : Acquainted x y) (hyx : Acquainted y x) (hop : x.Conforms y op) :
    x.conn.Credible op := by
  cases op with
  | segmentReceived stale seg =>
    have hmem : seg ∈ y.flight := List.mem_append_right _ hop
    exact ⟨fun hsyn => (hyx.syn seg hmem hsyn).1,
      fun hbare hrst hun => hxy.acks hun seg hmem hbare hrst⟩
  | _ => trivial

theorem lateWritesEmpty (h : Acquainted x y) (hop : x.Conforms y op) :
    x.conn.LateWritesEmpty op := by
  cases op with
  | write data =>
    intro hended
    rw [h.ended_eq, show x.ended = false from hop] at hended
    cases hended
  | _ => trivial

/-- **The calls of an endpoint after which its state is official.** -/
theorem official_step_iff (hxy : Acquainted x y) (hyx : Acquainted y x) (hop : x.Conforms y op) :
    (x.conn.step op).state.Official ↔ x.conn.KeepsOfficial op :=
  hxy.regular.official_step_iff (hxy.lateWritesEmpty hop) (hxy.credible hyx hop)

theorem regular_step (hxy : Acquainted x y) (hyx : Acquainted y x) (hop : x.Conforms y op)
    (hkeeps : x.conn.KeepsOfficial op) : (x.conn.step op).Regular :=
  hxy.regular.step (hxy.lateWritesEmpty hop) (hxy.credible hyx hop) hkeeps

/-- The sender before a call ends. -/
theorem synFirst_prepared (h : Acquainted x y) (op : ConnectionOp) :
    (x.conn.prepared op).sender.SynFirst ∧
      ((x.conn.step op).sender.Unacked ↔ (x.conn.prepared op).sender.Unacked) ∧
      (x.conn.step op).sender.isn = (x.conn.prepared op).sender.isn := by
  have hkeeps := x.conn.step_keeps op
  exact ⟨h.regular.bookkeeping.exec (fun _ call hb hs _ => hs.step hb call) h.regular.synFirst,
    hkeeps.unacked_iff, hkeeps.isn_eq⟩

/-- **An event at `x`.** -/
theorem sender_step (hxy : Acquainted x y) (hyx : Acquainted y x) (hop : x.Conforms y op)
    (hkeeps : x.conn.KeepsOfficial op) : Acquainted (x.step op) y := by
  obtain ⟨hfirst, hunacked, hprepared⟩ := hxy.synFirst_prepared op
  obtain ⟨S, hS⟩ := hxy.regular.final.transmits
  have hisn : (x.conn.step op).sender.isn = x.conn.sender.isn := (hS.step_extends op).isn_eq
  have hback : (x.conn.step op).sender.Unacked → x.conn.sender.Unacked :=
    hxy.regular.toSound.unacked_of_step
  refine ⟨hxy.regular_step hyx hop hkeeps,
    Endpoint.inputEnded_step hxy.regular.toSound hxy.ended_eq op, ?_, ?_, ?_, ?_, ?_⟩
  · -- a new SYN is the one that the sender has queued
    intro seg hseg
    change seg.SynAt (x.conn.step op).sender.isn
    rcases Endpoint.mem_flight_step hseg with hm | hm
    · rw [hisn]
      exact hxy.syn seg hm
    · rw [hprepared]
      refine hxy.regular.forall_appendedBy (p := fun seg => seg.SynAt _)
        (fun _ => TCPReceiver.synAt_stamp) (fun _ h => h) (fun seg hseg => ?_) seg hm
      exact hfirst.syn seg (List.mem_append_left _ hseg)
  · change ∀ isn ∈ y.conn.receiver.isn, isn = (x.conn.step op).sender.isn
    rw [hisn]
    exact hxy.isn
  · -- as long as it is not acknowledged, nothing but the SYN waits to be sent
    intro hun seg hseg
    rcases Endpoint.mem_flight_step hseg with hm | hm
    · exact hxy.bare (hback hun) seg hm
    · exact hxy.regular.appendedBy_bare (hfirst.opening (hunacked.mp hun)).bare seg hm
  · exact fun hun => hxy.untouched (hback hun)
  · intro hun seg hseg hbare hrst
    change seg.header.ackno = wrap 1 (x.conn.step op).sender.isn
    rw [hisn]
    exact hxy.acks (hback hun) seg hseg hbare hrst

/-- **An event at `y`.** Payload and FIN are sent only after the SYN of `y` was acknowledged, hence
after the SYN of `x` has arrived, and the receiver acknowledges nothing else. -/
theorem receiver_step (hxy : Acquainted x y) (hyx : Acquainted y x) (hop : y.Conforms x op)
    (hkeeps : y.conn.KeepsOfficial op) : Acquainted x (y.step op) := by
  have hmove := y.conn.step_receiver op
  have hregular := hyx.regular_step hxy hop hkeeps
  have harrives : ∀ stale seg, op = .segmentReceived stale seg → seg ∈ x.flight := by
    rintro stale seg rfl
    exact List.mem_append_right _ hop
  have hisn := hmove.isn hxy.isn fun stale seg heq => hxy.syn seg (harrives stale seg heq)
  have huntouched : x.conn.sender.Unacked → (y.conn.step op).receiver.Untouched := fun hun =>
    hmove.untouched (hxy.untouched hun) fun stale seg heq =>
      hxy.bare hun seg (harrives stale seg heq)
  refine ⟨hxy.regular, hxy.ended_eq, hxy.syn, hisn, hxy.bare, huntouched, ?_⟩
  intro hun seg hseg hbare hrst
  rcases Endpoint.mem_flight_step hseg with hm | hm
  · exact hxy.acks hun seg hm hbare hrst
  · rw [TCPConnection.appendedBy_eq] at hm
    rcases Ending.mem_sent hm with ⟨seg₀, hqueued, rfl⟩ | ⟨-, stale, rfl⟩
    · obtain ⟨hfirst, hunacked, -⟩ := hyx.synFirst_prepared op
      -- what is not bare was sent after an acknowledgment
      have hacked : ¬ (y.conn.step op).sender.Unacked := by
        intro hun'
        exact hbare (TCPReceiver.bare_stamp.mpr
          ((hfirst.opening (hunacked.mp hun')).bare seg₀ hqueued))
      obtain ⟨isn, hsome⟩ := Option.ne_none_iff_exists'.mp (mt hregular.unacked hacked)
      have hackno := (huntouched hun).ackno_eq hsome
      rw [TCPConnection.step_receiver_ackno, hisn isn hsome] at hackno
      change ((y.conn.received op).stamp seg₀).header.ackno = _
      rw [TCPReceiver.stamp, hackno]
    · -- the reset of a connection that gives up
      cases hrst

end Acquainted

/-! ## Runs -/

/-- The two endpoints know each other. -/
def Network.Acquainted (n : Network) : Prop :=
  Sponge.Acquainted n.a n.b ∧ Sponge.Acquainted n.b n.a

theorem Network.Acquainted.step {n : Network} (h : n.Acquainted) {e : NetworkEvent}
    (hconforms : n.Conforms e) (hkeeps : n.KeepsOfficial e) : (n.step e).Acquainted := by
  cases e with
  | atA op =>
    exact ⟨h.1.sender_step h.2 hconforms hkeeps, h.2.receiver_step h.1 hconforms hkeeps⟩
  | atB op =>
    exact ⟨h.1.receiver_step h.2 hconforms hkeeps, h.2.sender_step h.1 hconforms hkeeps⟩

/-- The other endpoint stays where it is. -/
theorem Network.Acquainted.reachesOfficial_iff {n : Network} (h : n.Acquainted) {e : NetworkEvent}
    (hconforms : n.Conforms e) : n.ReachesOfficial e ↔ n.KeepsOfficial e := by
  cases e with
  | atA op =>
    exact (and_iff_left h.2.regular.official).trans (h.1.official_step_iff h.2 hconforms)
  | atB op =>
    exact (and_iff_right h.1.regular.official).trans (h.2.official_step_iff h.1 hconforms)

/-- **The runs that reach official states only.** Let nothing be written after the end of the input,
and let the network lose, duplicate, delay and reorder segments, but forge none. Both endpoints are
in one of the twelve official states after every event exactly if no segment without SYN
acknowledges the SYN of an endpoint that still waits for the SYN of its peer, and no segment
completes the inbound stream of an endpoint whose outbound stream has ended, without FIN sent, with
exactly as many bytes left as the acknowledgment makes room for. -/
theorem official_states_iff (cfgA cfgB : TCPConfig) (isnA isnB : WrappingInt32)
    (events : List NetworkEvent)
    (hconforms : Run.Always Network.step Network.Conforms (Network.new cfgA cfgB isnA isnB)
      events) :
    Run.Always Network.step Network.ReachesOfficial (Network.new cfgA cfgB isnA isnB) events ↔
      Run.Always Network.step Network.KeepsOfficial (Network.new cfgA cfgB isnA isnB) events := by
  have hnew : (Network.new cfgA cfgB isnA isnB).Acquainted :=
    ⟨Acquainted.acquainted_new cfgA cfgB isnA isnB, Acquainted.acquainted_new cfgB cfgA isnB isnA⟩
  rw [← and_iff_right (b := Run.Always _ Network.ReachesOfficial _ _) hconforms,
    ← and_iff_right (b := Run.Always _ Network.KeepsOfficial _ _) hconforms,
    ← Run.always_and, ← Run.always_and]
  exact (Run.always_congr_of_guarded (fun n e h he => h.step he.1 he.2)
    (fun n e h => and_congr_right fun he => (h.reachesOfficial_iff he).symm) hnew).symm

/-- A simultaneous open, one byte, and a close from both ends. -/
theorem official_states_iff_simultaneous_open :
    Run.Always Network.step Network.ReachesOfficial
      (Network.new { rtTimeout := 1, recvCapacity := 4, sendCapacity := 4 }
        { rtTimeout := 1, recvCapacity := 4, sendCapacity := 4 } ⟨0⟩ ⟨9⟩)
      [.atA .connect, .atA .popSegment, .atB .connect, .atB .popSegment,
        .atA (.segmentReceived {} { header := { seqno := ⟨9⟩, syn := true } }),
        .atB (.segmentReceived {} { header := { seqno := ⟨0⟩, syn := true } }),
        .atA (.tick {} 0), .atA .popSegment, .atB (.tick {} 0), .atB .popSegment,
        .atA (.segmentReceived {}
          { header := { seqno := ⟨10⟩, ack := true, ackno := ⟨1⟩, win := 4 } }),
        .atB (.segmentReceived {}
          { header := { seqno := ⟨1⟩, ack := true, ackno := ⟨10⟩, win := 4 } }),
        .atA (.write [7]), .atA .popSegment, .atA .endInputStream, .atA .popSegment,
        .atB (.segmentReceived {}
          { header := { seqno := ⟨1⟩, ack := true, ackno := ⟨10⟩, win := 4 }, payload := [7] }),
        .atB .endInputStream, .atB .popSegment, .atB .popSegment,
        .atA (.segmentReceived {}
          { header := { seqno := ⟨10⟩, fin := true, ack := true, ackno := ⟨2⟩, win := 3 } }),
        .atA (.tick {} 10)] :=
  (official_states_iff _ _ _ _ _ (by decide)).mpr (by decide)

/-- **Two ways out of the official states.** The SYN of `a` is delivered twice, and `b` answers the
duplicate with a bare acknowledgment. When it overtakes the SYN of `b`, the sender of `a` is done
with its handshake while its receiver still listens.

The window of `b` is two bytes, and `a` fills it with the last two bytes of its stream. It has ended
its stream, but it cannot send FIN, when the FIN of `b` arrives: it counts as the end that has
closed first, and it will linger. -/
theorem unofficial_states_reached :
    (let start := Network.new { rtTimeout := 1, recvCapacity := 4, sendCapacity := 4 }
        { rtTimeout := 1, recvCapacity := 4, sendCapacity := 4 } ⟨0⟩ ⟨9⟩
      let events : List NetworkEvent :=
        [.atA .connect, .atA .popSegment,
          .atB (.segmentReceived {} { header := { seqno := ⟨0⟩, syn := true } }),
          .atB .popSegment,
          .atB (.segmentReceived {} { header := { seqno := ⟨0⟩, syn := true } }),
          .atB .popSegment,
          .atA (.segmentReceived {}
            { header := { seqno := ⟨10⟩, ack := true, ackno := ⟨1⟩, win := 4 } })]
      let state := (Run.exec Network.step start events).a.conn.state
      Run.Always Network.step Network.Conforms start events ∧ ¬ state.Official ∧
        state = ⟨.synAcked, .listen, true, true⟩) ∧
    (let start := Network.new { rtTimeout := 1, recvCapacity := 4, sendCapacity := 4 }
        { rtTimeout := 1, recvCapacity := 2, sendCapacity := 4 } ⟨0⟩ ⟨9⟩
      let events : List NetworkEvent :=
        [.atA .connect, .atA .popSegment,
          .atB (.segmentReceived {} { header := { seqno := ⟨0⟩, syn := true } }),
          .atB .popSegment,
          .atA (.segmentReceived {}
            { header := { seqno := ⟨9⟩, syn := true, ack := true, ackno := ⟨1⟩, win := 2 } }),
          .atA .popSegment,
          .atB (.segmentReceived {}
            { header := { seqno := ⟨1⟩, ack := true, ackno := ⟨10⟩, win := 4 } }),
          .atA (.write [7, 8]), .atA .endInputStream, .atB .endInputStream, .atB .popSegment,
          .atA (.segmentReceived {}
            { header := { seqno := ⟨10⟩, fin := true, ack := true, ackno := ⟨1⟩, win := 2 } })]
      let state := (Run.exec Network.step start events).a.conn.state
      Run.Always Network.step Network.Conforms start events ∧ ¬ state.Official ∧
        state = ⟨.synAcked, .finRecv, true, true⟩) := by
  decide

end Sponge
