import Mathlib.Tactic
import Sponge.Network
import Sponge.TCPConnection.AckFlow

/-!
# Clean close

An endpoint that becomes inactive without an error has sent its FIN, and its sender takes everything
for acknowledged. If every segment that releases outstanding segments has the ACK flag, then
everything has indeed arrived: the acknowledgments on the wire are those of the peer's receiver.

`segment_received` does not test the flag, however. A delayed duplicate of the peer's SYN, whose
acknowledgment number is the default `0`, may name a number that the sender has just used, and the
endpoint then closes cleanly while its peer has received nothing.

## Main definitions

* `Endpoint.AcksFlagged`: only a segment with the ACK flag releases outstanding segments
* `Confirmed x y`: what `x` takes for acknowledged has arrived at `y`

## Main results

* `Confirmed.sender_step`, `Confirmed.receiver_step`: what one event at either end preserves
* `clean_close_complete_of_flagged_acks`: a clean close loses nothing in such runs
* `clean_close_loses_stream`: a run that loses the whole stream
-/

namespace Sponge

/-- A segment releases outstanding segments only if it has the ACK flag. -/
def Endpoint.AcksFlagged (e : Endpoint) : ConnectionOp → Prop
  | .segmentReceived stale seg => e.conn.Releases stale seg → seg.header.ack = true
  | _ => True

instance (e : Endpoint) : ∀ op, Decidable (e.AcksFlagged op)
  | .segmentReceived stale seg =>
    inferInstanceAs (Decidable (e.conn.Releases stale seg → seg.header.ack = true))
  | .connect => isTrue trivial
  | .write _ => isTrue trivial
  | .endInputStream => isTrue trivial
  | .tick _ _ => isTrue trivial
  | .read _ => isTrue trivial
  | .popSegment => isTrue trivial

/-- The events at endpoint `a` respect the ACK flag. -/
def Network.AcksFlagged (n : Network) : NetworkEvent → Prop
  | .atA op => n.a.AcksFlagged op
  | .atB _ => True

instance (n : Network) : ∀ e, Decidable (n.AcksFlagged e)
  | .atA op => inferInstanceAs (Decidable (n.a.AcksFlagged op))
  | .atB _ => isTrue trivial

/-! ## Confirmed streams -/

/-- **What `x` takes for acknowledged has arrived at `y`**, unless `x` is in error. Every
acknowledgment of `y`, queued or on the wire, names a number up to which `y` has received. -/
structure Confirmed (x y : Endpoint) : Prop where
  genuine : ∀ seg ∈ y.conn.segmentsOut ++ y.wire, seg.header.ack = true →
    seg.header.rst = false → ∃ a ≤ y.conn.receiver.oldAbsAckno,
      seg.header.ackno = wrap a x.conn.sender.isn
  acked_le : x.conn.Erred ∨ x.conn.sender.ackedUpTo ≤ y.conn.receiver.oldAbsAckno

namespace Confirmed

variable {x y : Endpoint} {op : ConnectionOp}

theorem confirmed_new (cfgX cfgY : TCPConfig) (isnX isnY : WrappingInt32) :
    Confirmed (Endpoint.new cfgX isnX) (Endpoint.new cfgY isnY) where
  genuine := by simp [Endpoint.new, TCPConnection.new]
  acked_le := Or.inr (Nat.zero_le _)

/-- The acknowledgment that the receiver of `y` gives. -/
theorem genuine_of_acknowledges (hlink : Link x y) {seg : TCPSegment}
    (h : y.conn.receiver.Acknowledges seg) (hack : seg.header.ack = true)
    (hrst : seg.header.rst = false) :
    ∃ a ≤ y.conn.receiver.oldAbsAckno, seg.header.ackno = wrap a x.conn.sender.isn := by
  obtain ⟨isn, hisn, hackno⟩ := Option.map_eq_some_iff.mp (h hack hrst)
  refine ⟨y.conn.receiver.absAckno, ?_, ?_⟩
  · rw [TCPReceiver.oldAbsAckno, hisn, Option.isSome_some, if_pos rfl]
  · rw [← hlink.tracks.isn_eq isn hisn, hackno]

/-- **An event at the receiving end.** What it sends carries the acknowledgment of the receiver,
which does not move back. -/
theorem receiver_step (h : Confirmed x y) (hxy : Link x y) (hyx : Link y x)
    (hop : y.Allowed x op) : Confirmed x (y.step op) := by
  have hxy' := hxy.receiver_step hop
  have hmono : y.conn.receiver.oldAbsAckno ≤ (y.step op).conn.receiver.oldAbsAckno :=
    (y.conn.step_receiver op).oldAbsAckno_le hxy.tracks hxy'.tracks
  refine ⟨?_, h.acked_le.imp_right fun hle => hle.trans hmono⟩
  have hold : ∀ seg ∈ y.conn.segmentsOut ++ y.wire, seg.header.ack = true →
      seg.header.rst = false → ∃ a ≤ (y.step op).conn.receiver.oldAbsAckno,
        seg.header.ackno = wrap a x.conn.sender.isn := by
    intro seg hseg hack hrst
    obtain ⟨a, ha, hackno⟩ := h.genuine seg hseg hack hrst
    exact ⟨a, ha.trans hmono, hackno⟩
  intro seg hseg
  rcases List.mem_append.mp hseg with hm | hm
  · -- in the queue: an old segment, or one that was stamped in this call
    rcases hyx.transmits.step_acknowledges op seg hm with hm | hnew
    · exact hold seg (List.mem_append_left _ hm)
    · exact genuine_of_acknowledges hxy' hnew
  · rcases List.mem_append.mp hm with hm | hm
    · exact hold seg (List.mem_append_right _ hm)
    · exact hold seg (List.mem_append_left _ (y.mem_segmentsOut_of_sentBy hm))

/-- **An event at the sending end.** A segment with the ACK flag releases only what has arrived. -/
theorem sender_step (h : Confirmed x y) (hxy : Link x y) (hyx : Link y x) (hop : x.Allowed y op)
    (hflagged : x.AcksFlagged op) : Confirmed (x.step op) y := by
  have hisn := (hxy.transmits.step_extends op).isn_eq
  refine ⟨?_, ?_⟩
  · change ∀ seg ∈ _, _ → _ → ∃ a ≤ _, _ = wrap a (x.conn.step op).sender.isn
    rw [hisn]
    exact h.genuine
  -- an endpoint in error stays so, and otherwise `ackedUpTo` moves only with a release
  rcases h.acked_le with herr | hle
  · exact Or.inl (hxy.transmits.step_erred hyx.tracks.assembles.wellFormed op herr)
  have hnext := hxy.transmits.carries.nextSeqno_le
  have htotal := hxy.total
  have hbif := hxy.sound.bookkeeping.bytesInFlight_le
  rcases hxy.transmits.step_ackedUpTo (by omega) op with
    hsame | ⟨stale, seg, rfl, hrel, herr, hacked⟩
  · exact Or.inr (hsame.trans_le hle)
  · cases hrst : seg.header.rst with
    | true => exact Or.inl (herr hrst)
    | false =>
      right
      obtain ⟨a, ha, hackno⟩ :=
        h.genuine seg (List.mem_append_right _ hop) (hflagged hrel) hrst
      -- all numbers are below `2 ^ 31`, so the acknowledgment is recovered exactly
      have hshort := hxy.oldAbsAckno_le
      rw [hackno, unwrap_wrap _ (by omega) (by omega)] at hacked
      exact hacked.trans ha

/-- An endpoint that is inactive without an error has transmitted its whole stream. -/
theorem complete (h : Confirmed x y) (hxy : Link x y) (hinactive : x.conn.active = false)
    (hok : ¬ x.conn.Erred) :
    y.conn.receiver.streamOut.inputEnded = true ∧ y.delivered = x.accepted := by
  obtain ⟨hfin, hbif⟩ := (hxy.transmits.concluded hinactive).resolve_left hok
  have hacked := h.acked_le.resolve_left hok
  have hnext := hxy.transmits.carries.nextSeqno_of_finSent hfin
  have hwritten : y.conn.receiver.streamOut.nwritten ≤ x.accepted.length :=
    hxy.tracks.assembles.nwritten_le
  -- the acknowledgment of the FIN counts the end of the inbound stream
  have hended : y.conn.receiver.streamOut.inputEnded = true := by
    by_contra hopen
    unfold TCPSender.ackedUpTo TCPReceiver.oldAbsAckno at hacked
    rw [hxy.tracks.absAckno_eq, if_neg hopen] at hacked
    split_ifs at hacked <;> omega
  exact ⟨hended, (hxy.delivers.2 hended).1⟩

end Confirmed

/-- Both streams are on their way, and what `a` takes for acknowledged has arrived. -/
theorem Network.confirmed_step {n : Network} (h : n.Linked ∧ Confirmed n.a n.b) {e : NetworkEvent}
    (he : n.Allowed e ∧ n.AcksFlagged e) :
    (n.step e).Linked ∧ Confirmed (n.step e).a (n.step e).b := by
  obtain ⟨hlinked, hconfirmed⟩ := h
  obtain ⟨hallowed, hflagged⟩ := he
  refine ⟨hlinked.step hallowed, ?_⟩
  cases e with
  | atA op => exact hconfirmed.sender_step hlinked.1 hlinked.2 hallowed hflagged
  | atB op => exact hconfirmed.receiver_step hlinked.1 hlinked.2 hallowed

/-- **No silent data loss on clean close**, in every run in which only segments with the ACK flag
release outstanding segments of `a`: whenever `a` is inactive and neither of its streams is in
error, the inbound stream of `b` has ended and was written with exactly the bytes that `a` accepted.
-/
theorem clean_close_complete_of_flagged_acks (cfgA cfgB : TCPConfig) (isnA isnB : WrappingInt32)
    (hA : 1 ≤ cfgA.recvCapacity) (hB : 1 ≤ cfgB.recvCapacity) (events : List NetworkEvent)
    (hevents : Run.Always Network.step (fun n e => n.Allowed e ∧ n.AcksFlagged e)
      (Network.new cfgA cfgB isnA isnB) events) :
    let n := Run.exec Network.step (Network.new cfgA cfgB isnA isnB) events
    n.a.conn.active = false → ¬ n.a.conn.Erred →
      n.b.conn.receiver.streamOut.inputEnded = true ∧ n.b.delivered = n.a.accepted := by
  intro n hinactive hok
  have hinv : n.Linked ∧ Confirmed n.a n.b :=
    Run.invariant (I := fun n : Network => n.Linked ∧ Confirmed n.a n.b)
      (fun _ _ h he => Network.confirmed_step h he)
      ⟨Network.linked_new cfgA cfgB isnA isnB hA hB, Confirmed.confirmed_new cfgA cfgB isnA isnB⟩
      hevents
  exact hinv.2.complete hinv.1.1 hinactive hok

/-- A connection that carries one byte and is closed from both ends. -/
theorem clean_close_complete_of_flagged_acks_both_ends :
    let n := Run.exec Network.step
      (Network.new { rtTimeout := 1, recvCapacity := 4, sendCapacity := 4 }
        { rtTimeout := 1, recvCapacity := 4, sendCapacity := 4 } ⟨0⟩ ⟨9⟩)
      [.atA .connect, .atA (.write [7]), .atA .endInputStream, .atA .popSegment,
        .atB (.segmentReceived {} { header := { seqno := ⟨0⟩, syn := true } }), .atB .popSegment,
        .atA (.segmentReceived {}
          { header := { seqno := ⟨9⟩, syn := true, ack := true, ackno := ⟨1⟩, win := 4 } }),
        .atA .popSegment, .atB .endInputStream,
        .atB (.segmentReceived {}
          { header := { seqno := ⟨1⟩, fin := true, ack := true, ackno := ⟨10⟩, win := 4 },
            payload := [7] }),
        .atB .popSegment,
        .atA (.segmentReceived {}
          { header := { seqno := ⟨10⟩, fin := true, ack := true, ackno := ⟨3⟩, win := 3 } }),
        .atA (.tick {} 10)]
    n.a.conn.active = false ∧ ¬ n.a.conn.Erred ∧
      n.b.conn.receiver.streamOut.inputEnded = true ∧ n.b.delivered = n.a.accepted :=
  ⟨by decide, by decide,
    clean_close_complete_of_flagged_acks _ _ _ _ (by decide) (by decide) _ (by decide) (by decide)
      (by decide)⟩

/-- **A clean close that loses the whole stream.** The initial sequence number of `a` is
`2 ^ 32 - 3`. Both ends open at once. When SYN, one byte and FIN of `a` are sent, the SYN of `b`
arrives a second time: it has no ACK flag, but its acknowledgment number `0` is the next sequence
number of `a`, and all that is outstanding is given up. Once `b` has closed as well, `a` becomes
inactive without an error; `b` has not received the byte. -/
theorem clean_close_loses_stream :
    let start := Network.new { rtTimeout := 1, recvCapacity := 4, sendCapacity := 4 }
      { rtTimeout := 1, recvCapacity := 4, sendCapacity := 4 } ⟨4294967293⟩ ⟨0⟩
    let events : List NetworkEvent :=
      [.atA .connect, .atA .popSegment, .atB .connect, .atB .popSegment,
        .atA (.segmentReceived {} { header := { seqno := ⟨0⟩, syn := true } }),
        .atB (.segmentReceived {} { header := { seqno := ⟨4294967293⟩, syn := true } }),
        .atB (.tick {} 0), .atB .popSegment,
        .atA (.segmentReceived {}
          { header := { seqno := ⟨1⟩, ack := true, ackno := ⟨4294967294⟩, win := 4 } }),
        .atA (.write [7]), .atA .endInputStream,
        -- the duplicate of the SYN
        .atA (.segmentReceived {} { header := { seqno := ⟨0⟩, syn := true } }), .atA .popSegment,
        .atB (.segmentReceived {}
          { header := { seqno := ⟨4294967294⟩, ack := true, ackno := ⟨1⟩, win := 4 } }),
        .atB .endInputStream, .atB .popSegment,
        .atA (.segmentReceived {}
          { header :=
              { seqno := ⟨1⟩, fin := true, ack := true, ackno := ⟨4294967294⟩, win := 4 } }),
        .atA (.tick {} 10)]
    let n := Run.exec Network.step start events
    Run.Always Network.step Network.Allowed start events ∧ n.a.conn.active = false ∧
      ¬ n.a.conn.Erred ∧ n.a.accepted = [7] ∧ n.b.delivered = [] ∧
      n.b.conn.receiver.streamOut.inputEnded = false := by
  decide

end Sponge
