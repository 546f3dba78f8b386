import Mathlib.Tactic
import Sponge.TCPConnection.AckFlow
import Sponge.TCPConnection.Outbound
import Sponge.TCPConnection.SynFirst
import Sponge.TCPHelpers.TCPState

/-!
# The official states of a connection

The state of a connection is a combination of two summaries and two flags, kept by components that
do not know of each other. `Regular` says how they go together when the state is official; the calls
that leave the official states are stated exactly. They are two kinds of arriving segments: an
acknowledgment of the own SYN without the SYN of the peer, and a segment that ends the inbound
stream when the rest of the outbound stream takes all the room and leaves none for the FIN.

## Main definitions

* `TCPConnection.Regular`: the connection is in an official state, and how it got there
* `TCPConnection.Credible`: what may be assumed of an arriving segment
* `TCPConnection.KeepsOfficial`: the call does not lead out of the official states

## Main results

* `TCPConnection.Regular.official`: a regular connection is in an official state
* `TCPConnection.Regular.step`: what keeps it regular
* `TCPConnection.Regular.official_step_iff`: the calls after which the state is official
-/

namespace Sponge

namespace TCPSender

variable {s : TCPSender} {S : List UInt8}

/-! ## The summary of the sender -/

theorem stateSummary_of_unacked (herr : s.stream.error = false) (hun : s.Unacked) :
    s.stateSummary = if s.nextSeqno = 0 then .closed else .synSent := by
  unfold stateSummary
  rw [if_neg (by simp [herr])]
  split_ifs with hzero hflight
  · rfl
  · rfl
  all_goals exact absurd hun.symm hflight

/-- Once something is acknowledged, the summary tells whether FIN was sent, and whether all is
acknowledged. -/
theorem Carries.stateSummary_of_acked (h : s.Carries S) (herr : s.stream.error = false)
    (hacked : ¬ s.Unacked) :
    s.stateSummary =
      if s.finSent then (if s.bytesInFlight = 0 then .finAcked else .finSent) else .synAcked := by
  have hsyn := h.bookkeeping.synSent_of_acked hacked
  have hpos := h.bookkeeping.started hsyn
  unfold stateSummary
  rw [if_neg (by simp [herr]), if_neg hpos.ne', if_neg (fun heq => hacked heq.symm)]
  cases hfin : s.finSent with
  | true =>
    have heof := h.finished hfin
    have hnext := h.nextSeqno_of_finSent hfin
    rw [h.length_eq] at hnext
    rw [if_neg (by simp [heof]), if_neg (by omega), if_pos rfl]
    split_ifs <;> simp_all
  | false =>
    -- FIN is not counted, so the sequence number is behind the end of the stream
    have hnext := h.nextSeqno_eq hsyn
    have hcount := h.bookkeeping.wellFormed.nwritten_eq
    simp only [hfin, Bool.false_eq_true, if_false] at hnext ⊢
    unfold ByteStream.bytesWritten
    rw [if_pos (show s.nextSeqno < s.stream.nwritten + 2 by omega), ite_self]

theorem Bookkeeping.step_error (h : s.Bookkeeping) {op : SenderOp} (hop : op ≠ .setError) :
    (s.step op).stream.error = s.stream.error := by
  cases op with
  | setError => exact absurd rfl hop
  | fillWindow => exact h.fillWindow_error
  | ackReceived stale ackno w =>
    simp only [TCPSender.step]
    rcases s.ackReceived_cases stale ackno w with heq | ⟨-, heq⟩
    · rw [heq]
    · rw [heq, (h.acknowledged _ w).fillWindow_error, acknowledged_eq]
  | tick stale ms => exact congrArg ByteStream.error (s.tick_keeps stale ms).2
  | _ => rfl

end TCPSender

theorem TCPReceiver.segmentReceived_error (r : TCPReceiver) (seg : TCPSegment) :
    (r.segmentReceived seg).1.streamOut.error = r.streamOut.error := by
  rcases r.segmentReceived_cases seg with ⟨-, hr⟩ | ⟨isn, -, ⟨-, hr⟩ | ⟨-, hr⟩⟩
  · rw [hr]
  · rw [hr]
    rfl
  · rw [hr]
    exact StreamReassembler.pushSubstring_output_error _ _ _

namespace TCPConnection

variable {c : TCPConnection} {op : ConnectionOp} {stale seg : TCPSegment}

/-! ## The flags and the errors -/

/-- The intention to linger is not taken up again. -/
theorem linger_of_step (h : (c.step op).lingerAfterStreamsFinish = true) :
    c.lingerAfterStreamsFinish = true := by
  rw [step_eq] at h
  cases hending : c.ending op with
  | send =>
    rw [hending, Ending.apply, sendSenderSegments_linger_eq, Bool.and_eq_true] at h
    exact h.1
  | giveUp stale =>
    rw [hending, Ending.apply, sendSenderSegments_linger_eq, Bool.and_eq_true] at h
    exact h.1
  | _ =>
    rw [hending] at h
    exact h

theorem setError_notMem_senderCalls (c : TCPConnection) (op : ConnectionOp) :
    .setError ∉ c.senderCalls op := by
  cases op with
  | write data =>
    simp only [senderCalls]
    split_ifs <;> simp
  | tick stale ms =>
    simp only [senderCalls]
    split_ifs <;> simp
  | segmentReceived stale seg =>
    simp only [senderCalls]
    cases c.path seg with
    | exchanged =>
      dsimp only
      split_ifs <;> simp
    | _ => simp
  | _ => simp [senderCalls]

/-- **The error of the outbound stream** is set by the endings that abort, and by nothing else. -/
theorem Sound.step_sender_error (h : c.Sound) (op : ConnectionOp) :
    (c.step op).sender.stream.error = (c.sender.stream.error || (c.ending op).aborts) := by
  have hprepared : (c.prepared op).sender.stream.error = c.sender.stream.error :=
    h.bookkeeping.exec (I := fun s => s.stream.error = c.sender.stream.error)
      (fun s call hb hs hcall => (hb.step_error fun heq =>
        c.setError_notMem_senderCalls op (heq ▸ hcall)).trans hs) rfl
  rw [step_eq]
  cases c.ending op with
  | rest => exact hprepared.trans (Bool.or_false _).symm
  | send =>
    rw [Ending.apply, sendSenderSegments_sender]
    exact hprepared.trans (Bool.or_false _).symm
  | giveUp stale =>
    rw [Ending.apply, sendSenderSegments_sender]
    exact (Bool.or_true _).symm
  | reset stale => exact (Bool.or_true _).symm
  | refuse => exact (Bool.or_true _).symm

/-- **The error of the inbound stream** is set by the same endings. -/
theorem step_receiver_error (c : TCPConnection) (op : ConnectionOp) :
    (c.step op).receiver.streamOut.error =
      (c.receiver.streamOut.error || (c.ending op).aborts) := by
  have hreceived : (c.received op).streamOut.error = c.receiver.streamOut.error := by
    cases op with
    | segmentReceived stale seg =>
      simp only [received]
      cases c.path seg with
      | answered => exact TCPReceiver.segmentReceived_error _ _
      | simultaneous => exact TCPReceiver.segmentReceived_error _ _
      | exchanged => exact TCPReceiver.segmentReceived_error _ _
      | _ => rfl
    | _ => rfl
  rw [step_eq, Ending.apply_receiver]
  cases (c.ending op).aborts with
  | true => simp [ByteStream.setError]
  | false => exact hreceived.trans (Bool.or_false _).symm

theorem step_active_of_aborts (h : (c.ending op).aborts = true) : (c.step op).active = false := by
  rw [step_eq]
  cases hending : c.ending op with
  | giveUp stale => exact sendSenderSegments_inactive rfl
  | reset stale => rfl
  | refuse => rfl
  | _ =>
    rw [hending] at h
    cases h

/-- A call after which there is no error has not aborted the connection. -/
theorem aborts_of_no_error (h : (c.step op).receiver.streamOut.error = false) :
    c.receiver.streamOut.error = false ∧ (c.ending op).aborts = false := by
  rwa [step_receiver_error, Bool.or_eq_false_iff] at h

theorem ending_of_not_aborts (h : (c.ending op).aborts = false) :
    c.ending op = .rest ∨ c.ending op = .send := by
  cases hending : c.ending op with
  | rest => exact Or.inl rfl
  | send => exact Or.inr rfl
  | _ =>
    rw [hending] at h
    cases h

/-- A call that sends nothing makes its sender queue at most an empty segment. -/
theorem senderCalls_of_rest (h : c.ending op = .rest) :
    ∀ call ∈ c.senderCalls op, call = .sendEmptySegment := by
  cases op with
  | write data =>
    simp only [ending] at h
    simp only [senderCalls]
    split_ifs at h ⊢
    simp
  | tick stale ms =>
    simp only [ending] at h
    simp only [senderCalls]
    split_ifs at h ⊢
    simp
  | segmentReceived stale seg =>
    simp only [ending] at h
    simp only [senderCalls]
    cases hpath : c.path seg with
    | exchanged =>
      simp only [hpath] at h
      split_ifs at h
    | _ => simp_all
  | connect => cases h
  | endInputStream => cases h
  | _ => simp [senderCalls]

/-! ## Segments that arrive -/

/-- What the other end of a connection guarantees of its segments: a SYN is bare, and payload or FIN
comes with an acknowledgment of the own SYN, as long as nothing is acknowledged. -/
def Credible (c : TCPConnection) : ConnectionOp → Prop
  | .segmentReceived _ seg =>
    (seg.header.syn = true → seg.Bare) ∧
      (¬ seg.Bare → seg.header.rst = false → c.sender.Unacked →
        seg.header.ackno = wrap 1 c.sender.isn)
  | _ => True

/-- **The call does not lead out of the official states.** A segment without SYN does not
acknowledge the own SYN before the SYN of the peer has arrived; and when a segment completes the
inbound stream, the rest of the outbound stream does not take all the room and leave none for the
FIN. -/
def KeepsOfficial (c : TCPConnection) : ConnectionOp → Prop
  | .segmentReceived stale seg =>
    c.active = true → seg.header.rst = false →
      (c.synSent = true → seg.payload = [] → seg.header.ack = true → seg.header.syn = false →
        unwrap seg.header.ackno c.sender.isn c.sender.nextSeqno ≠ 1) ∧
      (c.receiver.streamOut.inputEnded = false → c.receiver.Completes seg →
        ¬ c.sender.CrowdsOutFin stale seg.header.ackno seg.header.win)
  | _ => True

instance (c : TCPConnection) : ∀ op, Decidable (c.KeepsOfficial op)
  | .segmentReceived _ _ => inferInstanceAs (Decidable (_ → _ → _ ∧ _))
  | .connect => isTrue trivial
  | .write _ => isTrue trivial
  | .endInputStream => isTrue trivial
  | .tick _ _ => isTrue trivial
  | .read _ => isTrue trivial
  | .popSegment => isTrue trivial

/-- **A regular connection.** Without an error it is active until both streams are done; before the
SYN of the peer arrives nothing is acknowledged, and before the own SYN is acknowledged the receiver
is untouched. When the inbound stream ends, either the outbound one is still open, and the
connection will not linger, or FIN has been sent. -/
structure Regular (c : TCPConnection) : Prop extends Orderly c where
  final : c.Final
  synFirst : c.sender.SynFirst
  inbound : c.receiver.reassembler.Formed
  error_eq : c.sender.stream.error = c.receiver.streamOut.error
  inactive : c.receiver.streamOut.error = true → c.active = false
  unacked : c.receiver.isn = none → c.sender.Unacked
  untouched : c.receiver.streamOut.error = false → c.sender.Unacked → c.receiver.Untouched
  linger : c.receiver.streamOut.inputEnded = false → c.lingerAfterStreamsFinish = true
  ended : c.receiver.streamOut.error = false → c.active = false →
    c.receiver.streamOut.inputEnded = true
  finSent : c.receiver.streamOut.error = false → c.receiver.streamOut.inputEnded = true →
    c.lingerAfterStreamsFinish = true → c.sender.finSent = true
  done : c.receiver.streamOut.error = false → c.active = true →
    c.receiver.streamOut.inputEnded = true → c.sender.stream.eof = true →
    c.sender.bytesInFlight = 0 → c.lingerAfterStreamsFinish = true

theorem regular_new (cfg : TCPConfig) (randomIsn : WrappingInt32) :
    (new cfg randomIsn).Regular where
  toOrderly := orderly_new cfg randomIsn
  final := final_new cfg randomIsn
  synFirst := TCPSender.synFirst_new _ _ _
  inbound := StreamReassembler.formed_new _
  error_eq := rfl
  inactive := fun h => by cases h
  unacked := fun _ => rfl
  untouched := fun _ _ => TCPReceiver.untouched_new _
  linger := fun _ => rfl
  ended := fun _ h => by cases h
  finSent := fun _ h => by cases h
  done := fun _ _ h => by cases h

/-! ## What an arriving segment does -/

theorem isn_eq_none_of_path (h : c.path seg = .answered ∨ c.path seg = .simultaneous) :
    c.receiver.isn = none := by
  unfold path at h
  split_ifs at h with hactive hclosed hsyn hsent hpayload hack hsyn' hrst <;> simp at h
  · exact isn_eq_none_of_closed hclosed
  · exact isn_eq_none_of_synSent hsent

/-- The acknowledgment on an exchanged segment decides whether anything is acknowledged. -/
theorem unacked_step_exchanged_iff (hpath : c.path seg = .exchanged) :
    (c.step (.segmentReceived stale seg)).sender.Unacked ↔
      (c.sender.ackReceived stale seg.header.ackno seg.header.win).Unacked := by
  rw [(step_keeps _ _).unacked_iff, prepared_exchanged hpath]
  exact Iff.rfl

theorem ending_exchanged (hpath : c.path seg = .exchanged) (hrst : seg.header.rst = false) :
    c.ending (.segmentReceived stale seg) = .send := by
  simp only [ending, hpath, hrst]
  rfl

/-- Nothing is acknowledged before a call after which nothing is. -/
theorem Sound.unacked_of_step (h : c.Sound) (hun : (c.step op).sender.Unacked) :
    c.sender.Unacked := by
  rw [step_sender] at hun
  exact h.bookkeeping.exec (I := fun s => s.Unacked → c.sender.Unacked)
    (fun _ _ hb hs _ hun => hs (hb.unacked_of_step hun)) (fun h => h) hun

/-- **Before the own SYN is acknowledged the receiver stays untouched**, since payload and FIN come
with an acknowledgment. -/
theorem Regular.untouched_step (h : c.Regular) (hop : c.Credible op)
    (herr : (c.step op).receiver.streamOut.error = false) (hun : (c.step op).sender.Unacked) :
    (c.step op).receiver.Untouched := by
  obtain ⟨herr', haborts⟩ := aborts_of_no_error herr
  have hun' := h.toSound.unacked_of_step hun
  have hbefore := h.untouched herr' hun'
  rw [step_eq, Ending.apply_receiver, if_neg (by simp [haborts])]
  change (c.received op).Untouched
  cases op with
  | segmentReceived stale seg =>
    simp only [received]
    cases hpath : c.path seg with
    | answered => exact hbefore.segmentReceived (hop.1 (syn_of_path (Or.inl hpath)))
    | simultaneous => exact hbefore.segmentReceived (hop.1 (syn_of_path (Or.inr hpath)))
    | exchanged =>
      refine hbefore.segmentReceived ?_
      by_contra hbare
      obtain ⟨-, hclosed, -⟩ := path_eq_exchanged_iff.mp hpath
      have hsyn := h.synSent_of_not_closed hclosed
      have hopening := h.synFirst.opening hun'
      cases hrst : seg.header.rst with
      | true =>
        -- a reset sets the error
        simp only [ending, hpath, hrst, if_true] at haborts
        cases haborts
      | false =>
        -- the segment acknowledges the SYN
        rw [unacked_step_exchanged_iff hpath,
          hopening.unacked_ackReceived_iff h.bookkeeping hsyn hun'] at hun
        refine hun ?_
        rw [hop.2 hbare hrst hun', hopening.nextSeqno_eq h.bookkeeping hsyn]
        exact unwrap_wrap _ (by omega) (by omega)
    | _ => exact hbefore
  | read len => exact hbefore.mapStreamOut (f := fun s => (s.read len).1) rfl rfl
  | _ => exact hbefore

/-- **Before the SYN of the peer nothing is acknowledged**, as long as no acknowledgment comes
without it. -/
theorem Regular.unacked_step (h : c.Regular) (hop : c.KeepsOfficial op)
    (hisn : (c.step op).receiver.isn = none) : (c.step op).sender.Unacked := by
  have hnone : (c.received op).ackno = none := by
    rw [← step_receiver_ackno]
    exact TCPReceiver.ackno_eq_none_iff.mpr hisn
  have hackno := ackno_eq_none_of_received hnone
  have hun := h.unacked (TCPReceiver.ackno_eq_none_iff.mp hackno)
  by_cases hexchanged : ∃ stale seg, op = .segmentReceived stale seg ∧ c.path seg = .exchanged
  · obtain ⟨stale, seg, rfl, hpath⟩ := hexchanged
    obtain ⟨hactive, hclosed, hsent⟩ := path_eq_exchanged_iff.mp hpath
    have hsyn := h.synSent_of_not_closed hclosed
    have hpos := h.bookkeeping.started hsyn
    -- without the SYN of the peer this is SYN_SENT, where only a bare acknowledgment gets here
    have hstate : c.synSent = true := by
      have hflight : c.sender.bytesInFlight = c.sender.nextSeqno := hun
      simp [synSent, hpos, hflight, hackno]
    obtain ⟨hpayload, hack, hrst⟩ := hsent hstate
    rw [received_exchanged hpath] at hnone
    have hnosyn := (TCPReceiver.segmentReceived_ackno_eq_none_iff.mp hnone).2
    rw [unacked_step_exchanged_iff hpath,
      (h.synFirst.opening hun).unacked_ackReceived_iff h.bookkeeping hsyn hun]
    exact (hop hactive hrst).1 hstate hpayload hack hnosyn
  · -- no other call gives the sender an acknowledgment
    rw [(step_keeps _ _).unacked_iff]
    refine h.bookkeeping.exec (I := TCPSender.Unacked)
      (fun s call hb hs hcall => (hb.unacked_step_iff ?_).mpr hs) hun
    rintro stale ackno w rfl
    exact hexchanged (exists_exchanged_of_mem hcall)

/-- **Only an exchanged segment ends the inbound stream.** -/
theorem Regular.exchanged_of_ends (h : c.Regular) (hop : c.Credible op)
    (herr : c.receiver.streamOut.error = false)
    (hopen : c.receiver.streamOut.inputEnded = false)
    (hends : (c.received op).streamOut.inputEnded = true) :
    ∃ stale seg, op = .segmentReceived stale seg ∧ c.path seg = .exchanged := by
  have hsame : (c.received op).streamOut.inputEnded = c.receiver.streamOut.inputEnded → False := by
    intro heq
    rw [heq, hopen] at hends
    cases hends
  cases op with
  | segmentReceived stale seg =>
    refine ⟨stale, seg, rfl, ?_⟩
    -- a first SYN reaches an untouched receiver, and is bare
    have hfirst : c.path seg = .answered ∨ c.path seg = .simultaneous →
        (c.received (.segmentReceived stale seg)) = (c.receiver.segmentReceived seg).1 →
        False := by
      intro hpath heq
      have hun := h.unacked (isn_eq_none_of_path hpath)
      have hafter := (h.untouched herr hun).segmentReceived (hop.1 (syn_of_path hpath))
      rw [heq, hafter.inputEnded_eq] at hends
      cases hends
    cases hpath : c.path seg with
    | exchanged => rfl
    | answered => exact (hfirst (Or.inl hpath) (by simp only [received, hpath])).elim
    | simultaneous => exact (hfirst (Or.inr hpath) (by simp only [received, hpath])).elim
    | _ => exact (hsame (by simp only [received, hpath])).elim
  | _ => exact (hsame rfl).elim

theorem step_error_exchanged (stale : TCPSegment) (hpath : c.path seg = .exchanged)
    (hrst : seg.header.rst = false) :
    (c.step (.segmentReceived stale seg)).receiver.streamOut.error =
      c.receiver.streamOut.error := by
  rw [step_receiver_error, ending_exchanged hpath hrst]
  exact Bool.or_false _

/-- **When the inbound stream ends, the own SYN is acknowledged.** -/
theorem Regular.acked_of_ends (h : c.Regular) (hop : c.Credible (.segmentReceived stale seg))
    (hpath : c.path seg = .exchanged) (hrst : seg.header.rst = false)
    (herr : c.receiver.streamOut.error = false)
    (hends : (c.receiver.segmentReceived seg).1.streamOut.inputEnded = true) :
    ¬ (c.step (.segmentReceived stale seg)).sender.Unacked := by
  intro hun
  have hopen :=
    (h.untouched_step hop ((step_error_exchanged stale hpath hrst).trans herr) hun).inputEnded_eq
  rw [step_receiver_inputEnded, received_exchanged hpath, hends] at hopen
  cases hopen

/-- **When the end of the inbound stream finds the outbound one exhausted without FIN.** -/
theorem Regular.eof_unfin_iff (h : c.Regular)
    (hop : c.Credible (.segmentReceived stale seg)) (hpath : c.path seg = .exchanged)
    (hrst : seg.header.rst = false) (herr : c.receiver.streamOut.error = false)
    (hends : (c.receiver.segmentReceived seg).1.streamOut.inputEnded = true) :
    ((c.prepared (.segmentReceived stale seg)).sender.stream.eof = true ∧
        (c.prepared (.segmentReceived stale seg)).sender.finSent = false) ↔
      c.sender.CrowdsOutFin stale seg.header.ackno seg.header.win := by
  obtain ⟨-, hclosed, -⟩ := path_eq_exchanged_iff.mp hpath
  have hacked := h.acked_of_ends hop hpath hrst herr hends
  rw [unacked_step_exchanged_iff hpath] at hacked
  rw [prepared_exchanged hpath]
  refine h.bookkeeping.ackReceived_eof_unfin_iff (h.synSent_of_not_closed hclosed) fun hvalid => ?_
  rw [TCPSender.ackReceived_of_valid _ hvalid,
    (h.bookkeeping.acknowledged _ _).unacked_fillWindow_iff] at hacked
  exact (h.synFirst.acknowledged h.bookkeeping _ _).synOutstanding_eq_false hacked

/-- A connection that lingers after the end of the inbound stream has sent its FIN. -/
theorem Regular.finSent_step (h : c.Regular) (hop : c.Credible op) (hkeeps : c.KeepsOfficial op)
    (herr : (c.step op).receiver.streamOut.error = false)
    (hended : (c.step op).receiver.streamOut.inputEnded = true)
    (hlinger : (c.step op).lingerAfterStreamsFinish = true) :
    (c.step op).sender.finSent = true := by
  obtain ⟨herr', haborts⟩ := aborts_of_no_error herr
  cases hbefore : c.receiver.streamOut.inputEnded with
  | true =>
    obtain ⟨S, hS⟩ := h.final.transmits
    exact (hS.step_extends op).finSent (h.finSent herr' hbefore (linger_of_step hlinger))
  | false =>
    rw [step_receiver_inputEnded] at hended
    obtain ⟨stale, seg, rfl, hpath⟩ := h.exchanged_of_ends hop herr' hbefore hended
    obtain ⟨hactive, -, -⟩ := path_eq_exchanged_iff.mp hpath
    have hrst : seg.header.rst = false := by
      by_contra hf
      simp only [ending, hpath, eq_true_of_ne_false hf, if_true] at haborts
      cases haborts
    have hends : (c.receiver.segmentReceived seg).1.streamOut.inputEnded = true := by
      rwa [received_exchanged hpath] at hended
    have hcrowded := h.eof_unfin_iff hop hpath hrst herr' hends
    rw [step_eq, ending_exchanged hpath hrst] at hlinger
    rw [(step_keeps _ _).finSent_eq]
    -- an open outbound stream would have stopped the intention to linger
    have heof : (c.prepared (.segmentReceived stale seg)).sender.stream.eof = true := by
      rw [Ending.apply, sendSenderSegments_linger_eq, Bool.and_eq_true] at hlinger
      have hinbound : (c.prepared (.segmentReceived stale seg)).receiver.streamOut.inputEnded =
          true := hended
      simpa [hinbound] using hlinger.2
    -- so FIN was not sent only if there was no room for it
    by_contra hf
    exact (hkeeps hactive hrst).2 hbefore ((TCPReceiver.completes_iff h.inbound hbefore).mpr hends)
      (hcrowded.mp ⟨heof, by simpa using hf⟩)

/-- An active connection with both streams done and all acknowledged lingers. -/
theorem Regular.done_step (h : c.Regular) (hop : c.Credible op)
    (herr : (c.step op).receiver.streamOut.error = false) (hactive : (c.step op).active = true)
    (hended : (c.step op).receiver.streamOut.inputEnded = true)
    (heof : (c.step op).sender.stream.eof = true) (hbif : (c.step op).sender.bytesInFlight = 0) :
    (c.step op).lingerAfterStreamsFinish = true := by
  obtain ⟨herr', haborts⟩ := aborts_of_no_error herr
  rw [step_receiver_inputEnded] at hended
  rw [step_eq] at hactive heof hbif ⊢
  rcases ending_of_not_aborts haborts with hrest | hsend
  · -- such a call changes none of the conditions
    rw [hrest] at hactive heof hbif ⊢
    have hcalls := senderCalls_of_rest hrest
    have hsame : (c.prepared op).sender.stream = c.sender.stream ∧
        (c.prepared op).sender.bytesInFlight = c.sender.bytesInFlight := by
      refine h.bookkeeping.exec
        (I := fun s => s.stream = c.sender.stream ∧ s.bytesInFlight = c.sender.bytesInFlight)
        (fun s call _ hs hcall => ?_) ⟨rfl, rfl⟩
      rw [hcalls call hcall]
      exact hs
    have hbefore : c.receiver.streamOut.inputEnded = true := by
      by_contra hf
      obtain ⟨stale, seg, rfl, hpath⟩ := h.exchanged_of_ends hop herr' (by simpa using hf) hended
      simp only [ending, hpath] at hrest
      split_ifs at hrest
    exact h.done herr' hactive hbefore (hsame.1 ▸ heof) (hsame.2 ▸ hbif)
  · -- a clean shutdown would have closed a connection that need not linger
    rw [hsend, Ending.apply] at hactive heof hbif ⊢
    rw [sendSenderSegments_sender] at heof hbif
    have hinbound : (c.prepared op).receiver.streamOut.inputEnded = true := hended
    rw [sendSenderSegments_active_eq] at hactive
    rw [sendSenderSegments_linger_eq]
    simp_all

/-- The two streams are in error together. -/
theorem Regular.step_error_eq (h : c.Regular) (op : ConnectionOp) :
    (c.step op).sender.stream.error = (c.step op).receiver.streamOut.error := by
  rw [h.toSound.step_sender_error, step_receiver_error, h.error_eq]

/-! ## One call -/

/-- **What keeps a connection regular.** -/
theorem Regular.step (h : c.Regular) (hlate : c.LateWritesEmpty op) (hop : c.Credible op)
    (hkeeps : c.KeepsOfficial op) : (c.step op).Regular where
  toOrderly := h.toOrderly.step op
  final := h.final.step hlate
  synFirst := by
    rw [step_sender]
    exact h.bookkeeping.exec (fun _ call hb hs _ => hs.step hb call) h.synFirst
  inbound := (c.step_receiver op).formed h.inbound
  error_eq := h.step_error_eq op
  inactive := by
    rw [step_receiver_error, Bool.or_eq_true]
    rintro (herr | haborts)
    · exact step_inactive (h.inactive herr) op
    · exact step_active_of_aborts haborts
  unacked := h.unacked_step hkeeps
  untouched := h.untouched_step hop
  linger := by
    rw [step_receiver_inputEnded]
    intro hopen
    have hbefore : c.receiver.streamOut.inputEnded = false := by
      by_contra hf
      rw [received_inputEnded (by simpa using hf)] at hopen
      cases hopen
    exact (step_linger (Or.inl hopen)).trans (h.linger hbefore)
  ended := by
    intro herr hinactive
    obtain ⟨herr', haborts⟩ := aborts_of_no_error herr
    rw [step_receiver_inputEnded]
    cases hactive : c.active with
    | false => exact received_inputEnded (h.ended herr' hactive)
    | true =>
      -- without an error only a clean shutdown closes the connection
      have hno : ¬ (c.step op).Erred := by
        unfold Erred
        rw [h.step_error_eq, herr]
        simp
      exact (step_closes hactive hinactive hno).2.1
  finSent := h.finSent_step hop hkeeps
  done := h.done_step hop

/-! ## The official states -/

/-- The summary of a receiver without error. -/
theorem receiver_summary_eq (herr : c.receiver.streamOut.error = false) :
    c.receiver.stateSummary =
      if c.receiver.isn = none then .listen
      else if c.receiver.streamOut.inputEnded then .finRecv else .synRecv := by
  unfold TCPReceiver.stateSummary
  rw [herr, if_neg Bool.false_ne_true, TCPReceiver.ackno, Option.isNone_map]
  simp only [Option.isNone_iff_eq_none]

theorem Regular.active_of_open (h : c.Regular) (herr : c.receiver.streamOut.error = false)
    (hopen : c.receiver.streamOut.inputEnded = false) : c.active = true := by
  by_contra hf
  rw [h.ended herr (by simpa using hf)] at hopen
  cases hopen

/-- RESET. -/
theorem Regular.official_of_error (h : c.Regular) (herr : c.receiver.streamOut.error = true) :
    c.state.Official := by
  refine ⟨.reset, ?_⟩
  simp [state, TCPState.new, TCPState.ofState, TCPReceiver.stateSummary, TCPSender.stateSummary,
    herr, h.error_eq.trans herr, h.inactive herr]

/-- LISTEN and SYN_SENT. -/
theorem Regular.official_of_isn_eq_none (h : c.Regular)
    (herr : c.receiver.streamOut.error = false) (hisn : c.receiver.isn = none) :
    c.state.Official := by
  have hun := h.unacked hisn
  have hopen := (h.untouched herr hun).inputEnded_eq
  have hsender := TCPSender.stateSummary_of_unacked (h.error_eq.trans herr) hun
  rw [TCPState.official_iff]
  simp only [state, TCPState.new, receiver_summary_eq herr, hisn, if_true, hsender,
    h.active_of_open herr hopen, h.linger hopen, and_true]
  split_ifs <;> simp

/-- SYN_RCVD, ESTABLISHED, FIN_WAIT_1 and FIN_WAIT_2. -/
theorem Regular.official_of_open (h : c.Regular) (herr : c.receiver.streamOut.error = false)
    (hisn : c.receiver.isn ≠ none) (hopen : c.receiver.streamOut.inputEnded = false) :
    c.state.Official := by
  have herr' := h.error_eq.trans herr
  have hpos := h.bookkeeping.started (h.synSent_of_isn (Option.isSome_iff_ne_none.mpr hisn))
  obtain ⟨S, hS⟩ := h.final.transmits
  have hsender : c.sender.stateSummary ≠ .error ∧ c.sender.stateSummary ≠ .closed := by
    by_cases hun : c.sender.Unacked
    · rw [TCPSender.stateSummary_of_unacked herr' hun, if_neg hpos.ne']
      simp
    · rw [hS.carries.stateSummary_of_acked herr' hun]
      split_ifs <;> simp
  rw [TCPState.official_iff]
  simp [state, TCPState.new, receiver_summary_eq herr, hisn, hopen, h.active_of_open herr hopen,
    h.linger hopen, hsender]

/-- CLOSE_WAIT, LAST_ACK, CLOSING, TIME_WAIT and CLOSED. -/
theorem Regular.official_of_ended (h : c.Regular) (herr : c.receiver.streamOut.error = false)
    (hended : c.receiver.streamOut.inputEnded = true) : c.state.Official := by
  have herr' := h.error_eq.trans herr
  obtain ⟨S, hS⟩ := h.final.transmits
  have hacked : ¬ c.sender.Unacked := by
    intro hun
    rw [(h.untouched herr hun).inputEnded_eq] at hended
    cases hended
  have hisn : c.receiver.isn ≠ none := fun hnone => hacked (h.unacked hnone)
  rw [TCPState.official_iff]
  simp only [state, TCPState.new, receiver_summary_eq herr, hisn, hended, if_true, if_false,
    hS.carries.stateSummary_of_acked herr' hacked]
  cases hactive : c.active with
  | false =>
    -- an inactive connection has sent FIN, and has nothing in flight
    obtain ⟨hfin, hbif⟩ := (hS.concluded hactive).resolve_left (by simp [Erred, herr, herr'])
    simp [hfin, hbif]
  | true =>
    cases hlinger : c.lingerAfterStreamsFinish with
    | true =>
      rw [h.finSent herr hended hlinger]
      by_cases hbif : c.sender.bytesInFlight = 0 <;> simp [hbif]
    | false =>
      cases hfin : c.sender.finSent with
      | false => simp
      | true =>
        -- with all acknowledged it would not be active
        have hbif : c.sender.bytesInFlight ≠ 0 := by
          intro hzero
          have hwait := h.done herr hactive hended (hS.carries.finished hfin) hzero
          rw [hlinger] at hwait
          cases hwait
        simp [hbif]

/-- **A regular connection is in an official state.** -/
theorem Regular.official (h : c.Regular) : c.state.Official := by
  cases herr : c.receiver.streamOut.error with
  | true => exact h.official_of_error herr
  | false =>
    by_cases hisn : c.receiver.isn = none
    · exact h.official_of_isn_eq_none herr hisn
    · cases hended : c.receiver.streamOut.inputEnded with
      | false => exact h.official_of_open herr hisn hended
      | true => exact h.official_of_ended herr hended

/-! ## The calls that lead out of them -/

theorem Regular.error_of_active (h : c.Regular) (hactive : c.active = true) :
    c.receiver.streamOut.error = false := by
  by_contra hf
  rw [h.inactive (by simpa using hf)] at hactive
  cases hactive

/-- **An acknowledgment of the own SYN without the SYN of the peer** leads to no official state: the
receiver still waits for the SYN, and the sender does not. -/
theorem Regular.unofficial_of_acked (h : c.Regular)
    (hlate : c.LateWritesEmpty (.segmentReceived stale seg)) (hactive : c.active = true)
    (hrst : seg.header.rst = false) (hstate : c.synSent = true) (hpayload : seg.payload = [])
    (hack : seg.header.ack = true) (hsyn : seg.header.syn = false)
    (habs : unwrap seg.header.ackno c.sender.isn c.sender.nextSeqno = 1) :
    ¬ (c.step (.segmentReceived stale seg)).state.Official := by
  have hisn := isn_eq_none_of_synSent hstate
  have hun := h.unacked hisn
  have hclosed : c.closed = false := by
    simp only [synSent, Bool.and_eq_true, decide_eq_true_eq] at hstate
    simp [closed, hstate.1.1.ne']
  have hpath : c.path seg = .exchanged :=
    path_eq_exchanged_iff.mpr ⟨hactive, hclosed, fun _ => ⟨hpayload, hack, hrst⟩⟩
  have herr := (step_error_exchanged stale hpath hrst).trans (h.error_of_active hactive)
  have hisn' : (c.step (.segmentReceived stale seg)).receiver.isn = none := by
    rw [← TCPReceiver.ackno_eq_none_iff, step_receiver_ackno, received_exchanged hpath]
    exact TCPReceiver.segmentReceived_ackno_eq_none_iff.mpr
      ⟨TCPReceiver.ackno_eq_none_iff.mpr hisn, hsyn⟩
  have hacked : ¬ (c.step (.segmentReceived stale seg)).sender.Unacked := by
    rw [unacked_step_exchanged_iff hpath, (h.synFirst.opening hun).unacked_ackReceived_iff
      h.bookkeeping (h.synSent_of_not_closed hclosed) hun]
    exact not_not.mpr habs
  have herr' := (h.step_error_eq (.segmentReceived stale seg)).trans herr
  obtain ⟨S, hS⟩ := (h.final.step hlate).transmits
  rw [TCPState.official_iff]
  simp only [state, TCPState.new, receiver_summary_eq herr, hisn', if_true,
    hS.carries.stateSummary_of_acked herr' hacked]
  split_ifs <;> simp

/-- A segment that ends the inbound stream is exchanged. -/
theorem Regular.path_of_ends (h : c.Regular) (hop : c.Credible (.segmentReceived stale seg))
    (hactive : c.active = true)
    (hopen : c.receiver.streamOut.inputEnded = false)
    (hends : (c.receiver.segmentReceived seg).1.streamOut.inputEnded = true) :
    c.path seg = .exchanged ∧ c.receiver.isn ≠ none := by
  have hisn : c.receiver.isn ≠ none := by
    intro hnone
    cases hsyn : seg.header.syn with
    | true =>
      have hbefore := h.untouched (h.error_of_active hactive) (h.unacked hnone)
      rw [(hbefore.segmentReceived (hop.1 hsyn)).inputEnded_eq] at hends
      cases hends
    | false =>
      -- without SYN the receiver ignores the segment
      rcases c.receiver.segmentReceived_cases seg with ⟨-, hr⟩ | ⟨isn, hlearn, -⟩
      · rw [hr, hopen] at hends
        cases hends
      · simp [TCPReceiver.learnIsn, hsyn, hnone] at hlearn
  exact ⟨path_of_isn hactive (Option.isSome_iff_ne_none.mpr hisn), hisn⟩

/-- **The end of the inbound stream, with the outbound one exhausted and FIN not sent**, leads to no
official state: the connection lingers, and its stream is not finished. -/
theorem Regular.unofficial_of_crowded (h : c.Regular)
    (hlate : c.LateWritesEmpty (.segmentReceived stale seg))
    (hop : c.Credible (.segmentReceived stale seg)) (hactive : c.active = true)
    (hrst : seg.header.rst = false) (hopen : c.receiver.streamOut.inputEnded = false)
    (hends : (c.receiver.segmentReceived seg).1.streamOut.inputEnded = true)
    (hcrowds : c.sender.CrowdsOutFin stale seg.header.ackno seg.header.win) :
    ¬ (c.step (.segmentReceived stale seg)).state.Official := by
  obtain ⟨hpath, hisn⟩ := h.path_of_ends hop hactive hopen hends
  have herr₀ := h.error_of_active hactive
  have herr := (step_error_exchanged stale hpath hrst).trans herr₀
  obtain ⟨heof, hfin⟩ := (h.eof_unfin_iff hop hpath hrst herr₀ hends).mpr hcrowds
  have hacked := h.acked_of_ends hop hpath hrst herr₀ hends
  have hinbound :
      (c.prepared (.segmentReceived stale seg)).receiver.streamOut.inputEnded = true := by
    change (c.received (.segmentReceived stale seg)).streamOut.inputEnded = true
    rw [received_exchanged hpath]
    exact hends
  have hlinger : (c.step (.segmentReceived stale seg)).lingerAfterStreamsFinish = true :=
    (step_linger (Or.inr heof)).trans (h.linger hopen)
  have hended : (c.step (.segmentReceived stale seg)).receiver.streamOut.inputEnded = true :=
    (step_receiver_inputEnded _ _).trans hinbound
  have hisn' : (c.step (.segmentReceived stale seg)).receiver.isn ≠ none := by
    rw [ne_eq, ← TCPReceiver.ackno_eq_none_iff, step_receiver_ackno]
    exact fun hnone => hisn (TCPReceiver.ackno_eq_none_iff.mp (ackno_eq_none_of_received hnone))
  have herr' := (h.step_error_eq (.segmentReceived stale seg)).trans herr
  obtain ⟨S, hS⟩ := (h.final.step hlate).transmits
  rw [TCPState.official_iff]
  simp only [state, TCPState.new, receiver_summary_eq herr, hisn', hended, if_true, if_false,
    hS.carries.stateSummary_of_acked herr' hacked, (step_keeps _ _).finSent_eq, hfin,
    Bool.false_eq_true, hlinger]
  -- the official CLOSE_WAIT does not linger
  rintro ⟨hon, hoff⟩
  rw [if_pos hon] at hoff
  cases hoff

/-- **The calls after which the state is official.** -/
theorem Regular.official_step_iff (h : c.Regular) (hlate : c.LateWritesEmpty op)
    (hop : c.Credible op) : (c.step op).state.Official ↔ c.KeepsOfficial op := by
  refine ⟨fun hofficial => ?_, fun hkeeps => (h.step hlate hop hkeeps).official⟩
  cases op with
  | segmentReceived stale seg =>
    intro hactive hrst
    refine ⟨fun hstate hpayload hack hsyn habs => ?_, fun hopen hcompletes hcrowds => ?_⟩
    · exact h.unofficial_of_acked hlate hactive hrst hstate hpayload hack hsyn habs hofficial
    · have hends := (TCPReceiver.completes_iff h.inbound hopen).mp hcompletes
      exact h.unofficial_of_crowded hlate hop hactive hrst hopen hends hcrowds hofficial
  | _ => trivial

end TCPConnection

end Sponge
