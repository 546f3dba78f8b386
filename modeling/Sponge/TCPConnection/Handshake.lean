import Mathlib.Tactic
import Sponge.TCPConnection.Stamps

/-!
# Before the SYN of the peer

The states of the handshake are not stored: `segment_received` infers them from the sequence
numbers and from the acknowledgment number of the receiver. Before the SYN of the peer has arrived,
a connection should send nothing but its own SYN, and `SYN_SENT` ends with an acknowledgment of it.
That acknowledgment need not come with a SYN, and the sender has no test of its own. `Opening` is
the state of the sender as long as only the SYN has been sent, and the calls that leave it are
stated exactly.

## Main definitions

* `TCPSegment.Bare`: a segment with neither payload nor FIN
* `TCPSender.Opening`: nothing but the SYN has been sent
* `TCPConnection.SendsBare`, `TCPConnection.AwaitsSyn`: what a call should send, and when it does

## Main results

* `TCPSender.Opening.fillWindow`, `TCPSender.Opening.settled_of_bare`: when `fill_window` sends
  nothing but the SYN
* `TCPConnection.Greeting.sendsBare_iff`: one call
* `bare_before_peer_syn_iff`, `data_before_peer_syn`: the runs
-/

namespace Sponge

/-- The segment has neither payload nor FIN. -/
def TCPSegment.Bare (seg : TCPSegment) : Prop :=
  seg.payload = [] ∧ seg.header.fin = false

instance (seg : TCPSegment) : Decidable seg.Bare :=
  inferInstanceAs (Decidable (_ ∧ _))

@[simp] theorem TCPReceiver.bare_stamp {r : TCPReceiver} {seg : TCPSegment} :
    (r.stamp seg).Bare ↔ seg.Bare := by
  unfold stamp
  cases r.ackno <;> exact Iff.rfl

@[simp] theorem TCPReceiver.bare_stampReset {r : TCPReceiver} {seg : TCPSegment} :
    (r.stampReset seg).Bare ↔ seg.Bare :=
  Iff.rfl

/-- What a sender emits after the SYN is not bare: it occupies sequence numbers. -/
theorem Contiguous.exists_not_bare {isn : WrappingInt32} {a : ℕ} {segs : List TCPSegment}
    (h : Contiguous isn a segs) (hne : segs ≠ []) (hsyn : ∀ seg ∈ segs, seg.header.syn = false) :
    ∃ seg ∈ segs, ¬ seg.Bare := by
  obtain ⟨seg, segs, rfl⟩ := List.exists_cons_of_ne_nil hne
  refine ⟨seg, List.mem_cons_self, fun hbare => ?_⟩
  have hpos := h.2.1
  rw [TCPSegment.lengthInSequenceSpace, hbare.1, hbare.2, hsyn seg List.mem_cons_self] at hpos
  exact absurd hpos (lt_irrefl 0)

/-! ## The sender -/

namespace TCPSender

variable {s s' : TCPSender}

/-- **Nothing but the SYN has been sent**, and what waits in the queue is bare. -/
structure Opening (s : TCPSender) : Prop where
  bare : ∀ seg ∈ s.segmentsOut, seg.Bare
  finSent_eq : s.finSent = false
  nextSeqno_le : s.nextSeqno ≤ 1
  outstanding : s.segmentsOutstanding = [] ∨
    s.segmentsOutstanding = [{ header := { seqno := wrap 0 s.isn, syn := true } }]

theorem Opening.keeps (h : s.Opening) (hk : Keeps s s')
    (hbare : ∀ seg ∈ s'.segmentsOut, seg.Bare) : s'.Opening where
  bare := hbare
  finSent_eq := hk.finSent_eq.trans h.finSent_eq
  nextSeqno_le := hk.nextSeqno_eq.trans_le h.nextSeqno_le
  outstanding := by
    rw [hk.outstanding_eq, hk.isn_eq]
    exact h.outstanding

theorem Opening.nextSeqno_eq (h : s.Opening) (hb : s.Bookkeeping) (hsyn : s.synSent = true) :
    s.nextSeqno = 1 :=
  le_antisymm h.nextSeqno_le (hb.started hsyn)

/-- After the SYN, `fill_window` sends nothing exactly if the sender is settled. -/
theorem Opening.idle_iff (h : s.Opening) (hb : s.Bookkeeping) : s.idle = true ↔ s.Settled := by
  rcases h.outstanding with hnil | hsyn
  · rw [hb.idle_iff_of_nil hnil]
    exact ⟨fun hidle _ => hidle, fun hsettled => hsettled hnil⟩
  · refine iff_of_true ?_ fun hnil => ?_
    · simp [idle, synOutstanding, hsyn]
    · rw [hsyn] at hnil
      cases hnil

/-- **`fill_window` sends nothing but the SYN** if a sender that has sent it is settled. -/
theorem Opening.fillWindow (h : s.Opening) (hb : s.Bookkeeping)
    (hsettled : s.synSent = true → s.Settled) : s.fillWindow.Opening := by
  rcases hb.fillWindow_cases with ⟨hunsent, he⟩ | ⟨-, -, heq⟩ | ⟨hsyn, hidle, -⟩
  · obtain ⟨hzero, hfin⟩ := hb.unsent hunsent
    refine ⟨?_, ?_, ?_, Or.inr ?_⟩
    · rw [he.segmentsOut_eq]
      intro seg hseg
      rcases List.mem_append.mp hseg with hm | hm
      · exact h.bare seg hm
      · rw [List.mem_singleton.mp hm]
        exact ⟨rfl, rfl⟩
    · rw [he.finSent_eq]
      exact (Bool.or_false _).trans hfin
    · rw [he.nextSeqno_eq]
      change s.nextSeqno + 1 ≤ 1
      omega
    · rw [he.outstanding_eq, he.isn_eq]
      exact congrArg (· ++ _) (hb.outstanding_of_unsent hunsent)
  · rw [heq]
    exact h
  · rw [(h.idle_iff hb).mpr (hsettled hsyn)] at hidle
    cases hidle

/-- Conversely, a sender that is not settled sends payload or FIN. -/
theorem Opening.settled_of_bare (h : s.Opening) (hb : s.Bookkeeping) (hsyn : s.synSent = true)
    (hbare : ∀ seg ∈ s.fillWindow.segmentsOut, seg.Bare) : s.Settled := by
  rcases hb.fillWindow_cases with
    ⟨hunsent, -⟩ | ⟨-, hidle, -⟩ | ⟨-, -, new, hne, he, -, -, hplain⟩
  · rw [hsyn] at hunsent
    cases hunsent
  · exact (h.idle_iff hb).mp hidle
  · obtain ⟨seg, hseg, hnot⟩ := he.contiguous.exists_not_bare hne hplain
    refine absurd (hbare seg ?_) hnot
    rw [he.segmentsOut_eq]
    exact List.mem_append_right _ hseg

theorem Opening.acknowledged (h : s.Opening) (a : ℕ) (windowSize : UInt16) :
    (s.acknowledged a windowSize).Opening := by
  have hout : s.unacked a = [] ∨
      s.unacked a = [{ header := { seqno := wrap 0 s.isn, syn := true } }] := by
    unfold unacked
    rcases h.outstanding with hnil | hsyn
    · rw [hnil]
      exact Or.inl rfl
    · rw [hsyn, List.dropWhile_cons]
      split_ifs
      · exact Or.inl rfl
      · exact Or.inr rfl
  rw [acknowledged_eq]
  exact ⟨h.bare, h.finSent_eq, h.nextSeqno_le, hout⟩

/-- **An acknowledgment of the SYN** lets `fill_window` send what has been written. Any other
acknowledgment changes nothing. -/
theorem Opening.ackReceived (h : s.Opening) (hb : s.Bookkeeping) (hs : s.Settled)
    (stale : TCPSegment) (ackno : WrappingInt32) (windowSize : UInt16)
    (hempty : s.segmentsOutstanding ≠ [] → unwrap ackno s.isn s.nextSeqno = 1 →
      s.stream.size = 0 ∧ s.stream.inputEnded = false) :
    (s.ackReceived stale ackno windowSize).Opening := by
  rcases s.ackReceived_cases stale ackno windowSize with heq | ⟨hvalid, heq⟩
  · rw [heq]
    exact h
  · rw [heq]
    refine (h.acknowledged _ windowSize).fillWindow (hb.acknowledged _ windowSize) fun _ => ?_
    rw [acknowledged_eq]
    intro hnil
    by_cases hout : s.segmentsOutstanding = []
    · exact hs hout
    · -- the SYN was outstanding, and is acknowledged
      have hle := hb.nextSeqno_le hout hnil
      have hpos : 0 < s.bytesInFlight :=
        Nat.pos_of_ne_zero fun hzero => hout (hb.bytesInFlight_eq_zero_iff.mp hzero)
      have hbif := hb.bytesInFlight_le
      have hnext := h.nextSeqno_le
      have habs := le_of_ackValid hvalid
      exact Or.inr (hempty hout (by omega))

/-- An acknowledgment number of `1` is valid, and takes the SYN from the queue. -/
theorem Opening.acked_syn (h : s.Opening) (hb : s.Bookkeeping)
    (hout : s.segmentsOutstanding ≠ []) (stale : TCPSegment) {ackno : WrappingInt32}
    (hackno : unwrap ackno s.isn s.nextSeqno = 1) :
    s.synSent = true ∧ s.ackValid stale (unwrap ackno s.isn s.nextSeqno) = true ∧
      s.unacked 1 = [] := by
  have hsyn : s.synSent = true := by
    by_contra hf
    exact hout (hb.outstanding_of_unsent (by simpa using hf))
  have hnext := h.nextSeqno_eq hb hsyn
  have hout' := h.outstanding.resolve_left hout
  have habs : s.absSeqno { header := { seqno := wrap 0 s.isn, syn := true } } = 0 :=
    absSeqno_eq rfl (Nat.zero_le _) (by omega)
  refine ⟨hsyn, ?_, ?_⟩
  · rw [ackValid, hackno, hout', List.headD_cons, habs, hnext]
    rfl
  · simp [unacked, hout', covers, habs, TCPSegment.lengthInSequenceSpace]

/-- What arrives with an acknowledgment of the SYN. -/
theorem Opening.ackReceived_syn (h : s.Opening) (hb : s.Bookkeeping)
    (hout : s.segmentsOutstanding ≠ []) {stale : TCPSegment} {ackno : WrappingInt32}
    {windowSize : UInt16} (hackno : unwrap ackno s.isn s.nextSeqno = 1)
    (hbare : ∀ seg ∈ (s.ackReceived stale ackno windowSize).segmentsOut, seg.Bare) :
    s.stream.size = 0 ∧ s.stream.inputEnded = false := by
  obtain ⟨hsyn, hvalid, hnil⟩ := h.acked_syn hb hout stale hackno
  rw [ackReceived_of_valid windowSize hvalid, hackno] at hbare
  have hsettled := (h.acknowledged 1 windowSize).settled_of_bare (hb.acknowledged 1 windowSize)
    (by rw [acknowledged_eq]; exact hsyn) hbare
  rw [acknowledged_eq] at hsettled
  exact (hsettled hnil).resolve_left (by simp [h.finSent_eq])

/-- The segment that a tick sends again is the SYN. -/
theorem Opening.tick (h : s.Opening) (hb : s.Bookkeeping) (stale : TCPSegment) (ms : ℕ) :
    (s.tick stale ms).Opening := by
  refine h.keeps (s.tick_keeps stale ms).1 fun seg hseg => ?_
  rcases hb.mem_tick_segmentsOut hseg with hm | hm
  · exact h.bare seg hm
  · rcases h.outstanding with hnil | hsyn
    · rw [hnil] at hm
      cases hm
    · rw [hsyn] at hm
      rw [List.mem_singleton.mp hm]
      exact ⟨rfl, rfl⟩

end TCPSender

/-! ## The connection -/

namespace TCPConnection

variable {c : TCPConnection} {op : ConnectionOp}

/-- **The invariant**: as long as the SYN of the peer has not arrived, nothing but the own SYN has
been sent. -/
structure Greeting (c : TCPConnection) : Prop extends Orderly c where
  opening : c.receiver.ackno = none → c.sender.Opening

theorem greeting_new (cfg : TCPConfig) (randomIsn : WrappingInt32) :
    (new cfg randomIsn).Greeting where
  toOrderly := orderly_new cfg randomIsn
  opening := fun _ => ⟨by simp [new, TCPSender.new], rfl, Nat.zero_le _, Or.inl rfl⟩

/-- **The call sends nothing but the SYN** if there is no acknowledgment number after it: every
appended segment has neither payload nor FIN. -/
def SendsBare (c : TCPConnection) (op : ConnectionOp) : Prop :=
  (c.step op).receiver.ackno = none → ∀ seg ∈ c.appendedBy op, seg.Bare

instance (c : TCPConnection) (op : ConnectionOp) : Decidable (c.SendsBare op) :=
  inferInstanceAs (Decidable (_ → ∀ seg ∈ c.appendedBy op, seg.Bare))

/-- **The stream waits for the SYN of the peer**: if the own SYN is acknowledged without one, no
byte is buffered and the input has not ended, and after that nothing is accepted by `write` and the
input is not ended. -/
def AwaitsSyn (c : TCPConnection) : ConnectionOp → Prop
  | .write data =>
    c.receiver.ackno = none → 0 < c.sender.nextSeqno → c.sender.bytesInFlight = 0 →
      data = [] ∨ c.sender.stream.remainingCapacity = 0
  | .endInputStream =>
    c.receiver.ackno = none → 0 < c.sender.nextSeqno → c.sender.bytesInFlight ≠ 0
  | .segmentReceived _ seg =>
    c.receiver.ackno = none → c.active = true → 0 < c.sender.nextSeqno →
      c.sender.bytesInFlight = c.sender.nextSeqno →
      seg.payload = [] → seg.header.ack = true → seg.header.rst = false →
      seg.header.syn = false →
      unwrap seg.header.ackno c.sender.isn c.sender.nextSeqno = 1 →
        c.sender.stream.bufferSize = 0 ∧ c.sender.stream.inputEnded = false
  | _ => True

theorem syn_of_path {seg : TCPSegment}
    (h : c.path seg = .answered ∨ c.path seg = .simultaneous) : seg.header.syn = true := by
  unfold path at h
  split_ifs at h <;> simp_all

/-- There is an acknowledgment number after a call that had one. -/
theorem ackno_eq_none_of_received (h : (c.received op).ackno = none) :
    c.receiver.ackno = none := by
  cases op with
  | segmentReceived stale seg =>
    simp only [received] at h
    split at h
    · exact (TCPReceiver.segmentReceived_ackno_eq_none_iff.mp h).1
    · exact (TCPReceiver.segmentReceived_ackno_eq_none_iff.mp h).1
    · exact (TCPReceiver.segmentReceived_ackno_eq_none_iff.mp h).1
    · exact h
  | _ => exact h

/-- A segment after which there is no acknowledgment number is exchanged without SYN, or it does not
reach the sender. -/
theorem exchanged_of_received {stale seg : TCPSegment}
    (h : (c.received (.segmentReceived stale seg)).ackno = none) :
    (c.path seg = .exchanged ∧ seg.header.syn = false) ∨
      c.senderCalls (.segmentReceived stale seg) = [] := by
  have hsyn : (c.receiver.segmentReceived seg).1.ackno = none → seg.header.syn = false :=
    fun hr => (TCPReceiver.segmentReceived_ackno_eq_none_iff.mp hr).2
  simp only [received] at h
  cases hpath : c.path seg with
  | answered =>
    rw [hpath] at h
    exact absurd (syn_of_path (Or.inl hpath)) (by simp [hsyn h])
  | simultaneous =>
    rw [hpath] at h
    exact absurd (syn_of_path (Or.inr hpath)) (by simp [hsyn h])
  | exchanged =>
    rw [hpath] at h
    exact Or.inl ⟨rfl, hsyn h⟩
  | _ => exact Or.inr (by simp only [senderCalls, hpath])

/-- A segment without SYN lets nothing but the SYN be sent, as long as the stream waits. -/
theorem Greeting.ackReceived (h : c.Greeting) (hackno : c.receiver.ackno = none)
    {stale seg : TCPSegment} (hpath : c.path seg = .exchanged) (hsyn : seg.header.syn = false)
    (hop : c.AwaitsSyn (.segmentReceived stale seg)) :
    (c.sender.ackReceived stale seg.header.ackno seg.header.win).Opening := by
  have ho := h.opening hackno
  have hb := h.bookkeeping
  obtain ⟨hactive, hclosed, hsent⟩ := path_eq_exchanged_iff.mp hpath
  have hpos := hb.started (h.synSent_of_not_closed hclosed)
  refine ho.ackReceived hb h.settled stale seg.header.ackno seg.header.win fun hout habs => ?_
  -- with the SYN outstanding the state is `SYN_SENT`
  have hbif : c.sender.bytesInFlight = c.sender.nextSeqno := by
    have hle := hb.bytesInFlight_le
    have hnext := ho.nextSeqno_le
    have hne := mt hb.bytesInFlight_eq_zero_iff.mp hout
    omega
  obtain ⟨hpayload, hack, hrst⟩ := hsent (by simp [synSent, hpos, hbif, hackno])
  exact hop hackno hactive hpos hbif hpayload hack hrst hsyn habs

/-- **As long as the stream waits, nothing but the SYN is sent.** -/
theorem Greeting.prepared (h : c.Greeting) (hnone : (c.received op).ackno = none)
    (hop : c.AwaitsSyn op) : (c.prepared op).sender.Opening := by
  have hackno := ackno_eq_none_of_received hnone
  have ho := h.opening hackno
  have hb := h.bookkeeping
  cases op with
  | connect => exact ho.fillWindow hb fun _ => h.settled
  | write data =>
    by_cases hdata : data = []
    · simp only [TCPConnection.prepared, senderCalls, hdata, List.length_nil, if_true]
      exact ho
    · simp only [TCPConnection.prepared, senderCalls, List.length_eq_zero_iff, hdata, if_false]
      have hk := c.sender.mapStreamIn_keeps fun stream => (stream.write data).1
      refine (ho.keeps hk ho.bare).fillWindow (hb.step (.write data)) ?_
      -- with the SYN acknowledged, nothing of the data is accepted
      intro hsyn hnil
      have hzero := hb.bytesInFlight_eq_zero_iff.mpr hnil
      have hfull := (hop hackno (hb.started hsyn) hzero).resolve_left hdata
      have hwritten : (c.sender.stream.write data).2 = 0 := by
        rw [ByteStream.write_snd, hfull, Nat.min_zero]
      rcases h.settled hnil with hfin | ⟨hsize, hended⟩
      · exact Or.inl hfin
      · refine Or.inr ⟨?_, hended⟩
        change (c.sender.stream.write data).1.size = 0
        rw [ByteStream.write_fst_size, hsize, hwritten]
  | endInputStream =>
    have hk := c.sender.mapStreamIn_keeps ByteStream.endInput
    refine (ho.keeps hk ho.bare).fillWindow (hb.step .endInput) ?_
    intro hsyn hnil
    exact absurd (hb.bytesInFlight_eq_zero_iff.mpr hnil) (hop hackno (hb.started hsyn))
  | tick stale ms =>
    simp only [TCPConnection.prepared, senderCalls]
    split_ifs
    · exact ho.tick hb stale ms
    · exact ho
  | segmentReceived stale seg =>
    rcases exchanged_of_received hnone with ⟨hpath, hsyn⟩ | hcalls
    · have hreceived := h.ackReceived hackno hpath hsyn hop
      rw [prepared_exchanged hpath]
      refine hreceived.keeps (TCPSender.setSegmentsOut_keeps _ _) fun seg hseg => ?_
      rcases List.mem_append.mp hseg with hm | hm
      · exact hreceived.bare seg hm
      · rw [List.eq_of_mem_replicate hm]
        exact ⟨rfl, rfl⟩
    · simp only [TCPConnection.prepared, hcalls]
      exact ho
  | read len => exact ho
  | popSegment => exact ho

/-- What `send_sender_segments` sends is what is waiting in the queue of the sender. -/
theorem SendsBare.queue (h : c.SendsBare op) (hnone : (c.received op).ackno = none)
    (hsend : c.ending op = .send) : ∀ seg ∈ (c.prepared op).sender.segmentsOut, seg.Bare := by
  intro seg hseg
  have hmem : (c.received op).stamp seg ∈ c.appendedBy op := by
    rw [appendedBy_eq, hsend]
    exact List.mem_map_of_mem hseg
  exact TCPReceiver.bare_stamp.mp (h ((c.step_receiver_ackno op).trans hnone) _ hmem)

/-- **If nothing but the SYN is sent, the stream waits.** -/
theorem Greeting.awaitsSyn (h : c.Greeting) (hsends : c.SendsBare op) : c.AwaitsSyn op := by
  have hb := h.bookkeeping
  cases op with
  | write data =>
    intro hackno hpos hzero
    have ho := h.opening hackno
    by_cases hdata : data = []
    · exact Or.inl hdata
    · have hbare := hsends.queue hackno
        (by simp only [ending, List.length_eq_zero_iff, hdata, if_false])
      simp only [TCPConnection.prepared, senderCalls, List.length_eq_zero_iff, hdata, if_false]
        at hbare
      have hk := c.sender.mapStreamIn_keeps fun stream => (stream.write data).1
      have hsettled := (ho.keeps hk ho.bare).settled_of_bare (hb.step (.write data))
        (hb.synSent_iff.mpr hpos) hbare
      obtain ⟨hsize, -⟩ := (hsettled (hb.bytesInFlight_eq_zero_iff.mp hzero)).resolve_left
        (by simp [hk.finSent_eq, ho.finSent_eq])
      have hsum : c.sender.stream.size + (c.sender.stream.write data).2 = 0 := hsize
      rw [ByteStream.write_snd] at hsum
      have hlength := mt List.length_eq_zero_iff.mp hdata
      exact Or.inr (by omega)
  | endInputStream =>
    intro hackno hpos hzero
    have ho := h.opening hackno
    have hk := c.sender.mapStreamIn_keeps ByteStream.endInput
    have hsettled := (ho.keeps hk ho.bare).settled_of_bare (hb.step .endInput)
      (hb.synSent_iff.mpr hpos) (hsends.queue hackno rfl)
    obtain ⟨-, hended⟩ := (hsettled (hb.bytesInFlight_eq_zero_iff.mp hzero)).resolve_left
      (by simp [hk.finSent_eq, ho.finSent_eq])
    cases hended
  | segmentReceived stale seg =>
    intro hackno hactive hpos hbif hpayload hack hrst hsyn habs
    have hpath : c.path seg = .exchanged :=
      path_eq_exchanged_iff.mpr ⟨hactive, by simp [closed, hpos.ne'],
        fun _ => ⟨hpayload, hack, hrst⟩⟩
    have hnone : (c.received (.segmentReceived stale seg)).ackno = none := by
      rw [received_exchanged hpath]
      exact TCPReceiver.segmentReceived_ackno_eq_none_iff.mpr ⟨hackno, hsyn⟩
    have hbare := hsends.queue hnone (by simp only [ending, hpath, hrst]; rfl)
    rw [prepared_exchanged hpath] at hbare
    have hout : c.sender.segmentsOutstanding ≠ [] := fun hnil => by
      have hzero := hb.bytesInFlight_eq_zero_iff.mpr hnil
      omega
    exact (h.opening hackno).ackReceived_syn hb hout habs
      fun seg hseg => hbare seg (List.mem_append_left _ hseg)
  | _ => trivial

/-- A RST is sent in a segment of the queue: the retransmitted one, or an empty one. -/
theorem Orderly.queue_ne_nil (h : c.Orderly) (hresets : (c.ending op).resets = true) :
    (c.prepared op).sender.segmentsOut ≠ [] := by
  cases op with
  | tick stale ms =>
    obtain ⟨hactive, hlimit⟩ := resets_tick_iff.mp hresets
    rw [prepared_tick hactive]
    exact TCPSender.tick_segmentsOut_ne_nil ((h.retx hactive).trans_lt hlimit)
  | segmentReceived stale seg =>
    obtain ⟨hpath, hrst⟩ := resets_segmentReceived_iff.mp hresets
    rw [prepared_exchanged hpath]
    simp [hrst]
  | write data =>
    simp only [ending] at hresets
    split_ifs at hresets <;> cases hresets
  | _ => cases hresets

/-- **What is true of all that waits in the queue of the sender**, whatever its stamp, is true of
all that is appended. -/
theorem Orderly.forall_appendedBy (h : c.Orderly) {p : TCPSegment → Prop}
    (hstamp : ∀ seg, p seg → p ((c.received op).stamp seg))
    (hreset : ∀ seg, p seg → p ((c.received op).stampReset seg))
    (hqueue : ∀ seg ∈ (c.prepared op).sender.segmentsOut, p seg) :
    ∀ seg ∈ c.appendedBy op, p seg := by
  intro seg hseg
  rw [appendedBy_eq] at hseg
  rcases Ending.mem_sent hseg with ⟨seg₀, hm, rfl⟩ | ⟨hresets, stale, rfl⟩
  · exact hstamp seg₀ (hqueue seg₀ hm)
  · obtain ⟨front, segs, hfront⟩ := List.exists_cons_of_ne_nil (h.queue_ne_nil hresets)
    rw [hfront] at hqueue ⊢
    exact hreset front (hqueue front List.mem_cons_self)

/-- If what is waiting in the queue of the sender is bare, so is what is appended. -/
theorem Orderly.appendedBy_bare (h : c.Orderly)
    (hbare : ∀ seg ∈ (c.prepared op).sender.segmentsOut, seg.Bare) :
    ∀ seg ∈ c.appendedBy op, seg.Bare :=
  h.forall_appendedBy (fun _ => TCPReceiver.bare_stamp.mpr)
    (fun _ => TCPReceiver.bare_stampReset.mpr) hbare

/-- **One call.** Before the SYN of the peer has arrived, a call sends nothing but the SYN exactly
if the stream waits. -/
theorem Greeting.sendsBare_iff (h : c.Greeting) (op : ConnectionOp) :
    c.SendsBare op ↔ c.AwaitsSyn op := by
  refine ⟨h.awaitsSyn, fun hop hnone => ?_⟩
  rw [step_receiver_ackno] at hnone
  exact h.appendedBy_bare (h.prepared hnone hop).bare

/-- Such a call keeps the invariant. -/
theorem Greeting.step (h : c.Greeting) (hsends : c.SendsBare op) : (c.step op).Greeting where
  toOrderly := h.toOrderly.step op
  opening := by
    intro hnone
    rw [step_receiver_ackno] at hnone
    rw [step_eq, Ending.apply_sender]
    refine Run.invariant (P := fun _ call => call = .setError ∨ call = .popSegment)
      (fun s call hs hcall => ?_) (h.prepared hnone (h.awaitsSyn hsends))
      (Run.always_of_forall fun _ => Ending.mem_senderCalls)
    rcases hcall with rfl | rfl
    · exact hs.keeps (s.mapStreamIn_keeps _) hs.bare
    · exact hs.keeps (s.setSegmentsOut_keeps _) fun seg hseg =>
        hs.bare seg (List.mem_of_mem_tail hseg)

end TCPConnection

/-- **When nothing but the SYN is sent before the SYN of the peer.** On every run, whatever arrives,
no segment with payload or FIN is appended while there is no acknowledgment number exactly if the
stream waits for the SYN of the peer: whenever the own SYN is acknowledged without one, no byte is
buffered and the input has not ended, and until the SYN of the peer arrives no `write` is accepted
and the input is not ended. -/
theorem bare_before_peer_syn_iff (cfg : TCPConfig) (randomIsn : WrappingInt32)
    (ops : List ConnectionOp) :
    Run.Always TCPConnection.step TCPConnection.SendsBare (TCPConnection.new cfg randomIsn) ops ↔
      Run.Always TCPConnection.step TCPConnection.AwaitsSyn
        (TCPConnection.new cfg randomIsn) ops :=
  Run.always_congr_of_guarded (fun _ _ h hsends => h.step hsends)
    (fun _ op h => h.sendsBare_iff op) (TCPConnection.greeting_new cfg randomIsn)

/-- **Data before the SYN of the peer.** A byte is written while the SYN is on its way. A segment
that acknowledges the SYN, but has no SYN itself, ends `SYN_SENT`, and the byte is sent although
nothing is known of the peer's sequence numbers. -/
theorem data_before_peer_syn :
    let c := Run.exec TCPConnection.step
      (TCPConnection.new { recvCapacity := 4, sendCapacity := 4 } ⟨7⟩) [.connect, .write [65]]
    let op : ConnectionOp :=
      .segmentReceived {} { header := { ack := true, ackno := ⟨8⟩, win := 10 } }
    c.appendedBy op = [{ header := { seqno := ⟨8⟩ }, payload := [65] }] ∧
      (c.step op).receiver.ackno = none ∧ ¬ c.SendsBare op := by
  decide

end Sponge
