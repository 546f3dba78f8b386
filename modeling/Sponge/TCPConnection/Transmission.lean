import Mathlib.Tactic
import Sponge.TCPConnection.Calls
import Sponge.TCPSender.Carriage

/-!
# What a connection transmits

Whatever a connection puts into its outbound queue is a segment of its outbound stream, with the
acknowledgment of its receiver on it: new segments, retransmissions, empty segments and RSTs alike.
And a connection that has become inactive without an error has sent its FIN and has nothing in
flight.

## Main definitions

* `TCPConnection.Transmits S c`: the connection transmits the stream `S`
* `TCPConnection.Concluded`: an error occurred, or FIN was sent and nothing is in flight
* `TCPConnection.acceptedBy`: the bytes that a call adds to the outbound stream

## Main results

* `TCPConnection.Transmits.step`: every call keeps it
* `TCPConnection.Transmits.step_extends`: the sender moves on with every call
-/

namespace Sponge

namespace TCPSender

variable {s : TCPSender} {S : List UInt8} {seg : TCPSegment}

/-- A stamp does not change which part of the stream a segment is. -/
theorem Sent.stamp (h : Sent S s seg) (r : TCPReceiver) : Sent S s (r.stamp seg) := by
  obtain ⟨a, ha, hseg, hfin⟩ := h
  unfold TCPReceiver.stamp
  split
  · exact ⟨a, ha, hseg.of_header_eq rfl rfl rfl rfl, hfin⟩
  · exact ⟨a, ha, hseg, hfin⟩

theorem Sent.stampReset (h : Sent S s seg) (r : TCPReceiver) : Sent S s (r.stampReset seg) := by
  obtain ⟨a, ha, hseg, hfin⟩ := h
  exact ⟨a, ha, hseg.of_header_eq rfl rfl rfl rfl, hfin⟩

/-- `fill_window` after FIN does nothing. -/
theorem Bookkeeping.fillWindow_of_finSent (h : s.Bookkeeping) (hfin : s.finSent = true) :
    s.fillWindow = s :=
  fillWindow_of_idle (h.synSent_of_finSent hfin) (by simp [idle, hfin])

/-- Once FIN is sent the next sequence number is the one after it. -/
theorem Carries.nextSeqno_of_finSent (h : s.Carries S) (hfin : s.finSent = true) :
    s.nextSeqno = S.length + 2 := by
  have hempty := (ByteStream.eof_iff.mp (h.finished hfin)).2
  have hbuffer := h.bookkeeping.wellFormed.buffer_eq_nil_iff.mpr hempty
  have hread := h.nread_le
  rw [h.buffer_eq, List.drop_eq_nil_iff] at hbuffer
  rw [h.nextSeqno_eq (h.bookkeeping.synSent_of_finSent hfin), if_pos hfin]
  omega

theorem Bookkeeping.fillWindow_retransmissions (h : s.Bookkeeping) :
    s.fillWindow.consecutiveRetransmissions = s.consecutiveRetransmissions := by
  obtain ⟨new, he⟩ := h.exists_emits
  exact he.retransmissions_eq

theorem Bookkeeping.fillWindow_error (h : s.Bookkeeping) :
    s.fillWindow.stream.error = s.stream.error := by
  obtain ⟨new, he⟩ := h.exists_emits
  exact he.error_eq

theorem Bookkeeping.fillWindow_inputEnded (h : s.Bookkeeping) :
    s.fillWindow.stream.inputEnded = s.stream.inputEnded := by
  obtain ⟨new, he⟩ := h.exists_emits
  exact he.inputEnded_eq

theorem Bookkeeping.ackReceived_inputEnded (h : s.Bookkeeping) (stale : TCPSegment)
    (ackno : WrappingInt32) (w : UInt16) :
    (s.ackReceived stale ackno w).stream.inputEnded = s.stream.inputEnded := by
  rcases s.ackReceived_cases stale ackno w with heq | ⟨-, heq⟩
  · rw [heq]
  · rw [heq, (h.acknowledged _ w).fillWindow_inputEnded, acknowledged_eq]

theorem Bookkeeping.step_inputEnded (h : s.Bookkeeping) {op : SenderOp} (hop : op ≠ .endInput) :
    (s.step op).stream.inputEnded = s.stream.inputEnded := by
  cases op with
  | endInput => exact absurd rfl hop
  | fillWindow => exact h.fillWindow_inputEnded
  | ackReceived stale ackno w => exact h.ackReceived_inputEnded stale ackno w
  | tick stale ms => exact congrArg ByteStream.inputEnded (s.tick_keeps stale ms).2
  | _ => rfl

/-- An acknowledgment does not raise the number of retransmissions. -/
theorem Bookkeeping.ackReceived_retransmissions (h : s.Bookkeeping) (stale : TCPSegment)
    (ackno : WrappingInt32) (w : UInt16) :
    (s.ackReceived stale ackno w).consecutiveRetransmissions.toNat ≤
      s.consecutiveRetransmissions.toNat := by
  rcases s.ackReceived_cases stale ackno w with heq | ⟨-, heq⟩
  · rw [heq]
  · rw [heq, (h.acknowledged _ w).fillWindow_retransmissions, acknowledged_eq]
    dsimp only
    split_ifs
    · exact le_refl _
    · exact Nat.zero_le _

end TCPSender

namespace TCPConnection

variable {c : TCPConnection} {S : List UInt8}

/-- One of the two streams is in error. -/
def Erred (c : TCPConnection) : Prop :=
  c.receiver.streamOut.error = true ∨ c.sender.stream.error = true

instance (c : TCPConnection) : Decidable c.Erred :=
  inferInstanceAs (Decidable (_ ∨ _))

/-- An error occurred, or FIN was sent and nothing is in flight. -/
def Concluded (c : TCPConnection) : Prop :=
  c.Erred ∨ (c.sender.finSent = true ∧ c.sender.bytesInFlight = 0)

/-- **The connection transmits the stream `S`.** Its outbound queue holds segments of `S`; while it
is active the number of retransmissions is within the limit, and once it is inactive it is
concluded. -/
structure Transmits (S : List UInt8) (c : TCPConnection) : Prop where
  carries : c.sender.Carries S
  out : ∀ seg ∈ c.segmentsOut, TCPSender.Sent S c.sender seg
  retx : c.active = true →
    c.sender.consecutiveRetransmissions.toNat ≤ TCPConfig.maxRetxAttempts
  concluded : c.active = false → c.Concluded

theorem transmits_new (cfg : TCPConfig) (randomIsn : WrappingInt32) :
    (new cfg randomIsn).Transmits [] where
  carries := TCPSender.carries_new _ _ _
  out := by simp [new]
  retx := fun _ => Nat.zero_le _
  concluded := fun h => by cases h

/-! ## The parts of a call -/

theorem Transmits.heard (h : c.Transmits S) : c.heard.Transmits S :=
  ⟨h.carries, h.out, h.retx, h.concluded⟩

/-- A move of the sender. -/
theorem Transmits.mapSender (h : c.Transmits S) {f : TCPSender → TCPSender}
    (hcarries : (f c.sender).Carries S) (hext : c.sender.Extends (f c.sender))
    (hretx : c.active = true →
      (f c.sender).consecutiveRetransmissions.toNat ≤ TCPConfig.maxRetxAttempts)
    (hconcluded : c.active = false → (c.mapSender f).Concluded) : (c.mapSender f).Transmits S :=
  ⟨hcarries, fun seg hseg => (h.out seg hseg).mono hext, hretx, hconcluded⟩

theorem Transmits.fillWindow (h : c.Transmits S) :
    (c.mapSender TCPSender.fillWindow).Transmits S := by
  have hb := h.carries.bookkeeping
  refine h.mapSender h.carries.fillWindow hb.fillWindow_extends ?_ ?_
  · rw [hb.fillWindow_retransmissions]
    exact h.retx
  · -- after FIN the call does nothing, so it leaves a concluded connection concluded
    intro hactive
    rcases h.concluded hactive with (herr | herr) | ⟨hfin, hbif⟩
    · exact Or.inl (Or.inl herr)
    · exact Or.inl (Or.inr (hb.fillWindow_error.trans herr))
    · right
      change c.sender.fillWindow.finSent = true ∧ c.sender.fillWindow.bytesInFlight = 0
      rw [hb.fillWindow_of_finSent hfin]
      exact ⟨hfin, hbif⟩

/-- A write before the end of the input. -/
theorem Transmits.write (h : c.Transmits S) (hopen : c.sender.stream.inputEnded = false)
    (data : List UInt8) :
    (c.mapSender (TCPSender.mapStreamIn fun stream => (stream.write data).1)).Transmits
      (S ++ data.take (c.sender.stream.write data).2) := by
  have hunfin : c.sender.finSent = false := by
    by_contra hf
    have := (ByteStream.eof_iff.mp (h.carries.finished (by simpa using hf))).1
    rw [hopen] at this
    cases this
  refine ⟨h.carries.write hopen data, fun seg hseg => (h.out seg hseg).append hunfin, h.retx, ?_⟩
  intro hactive
  -- nothing is written after FIN
  rcases h.concluded hactive with herr | ⟨hfin, -⟩
  · exact Or.inl herr
  · rw [hfin] at hunfin
    cases hunfin

theorem Transmits.endInput (h : c.Transmits S) :
    (c.mapSender (TCPSender.mapStreamIn ByteStream.endInput)).Transmits S :=
  h.mapSender h.carries.endInput ((c.sender.mapStreamIn_keeps _).toExtends fun he => he) h.retx
    h.concluded

theorem Transmits.sendEmptySegment (h : c.Transmits S) (hsyn : c.sender.synSent = true) :
    (c.mapSender TCPSender.sendEmptySegment).Transmits S :=
  h.mapSender (h.carries.sendEmptySegment hsyn)
    ((c.sender.setSegmentsOut_keeps _).toExtends fun he => he) h.retx h.concluded

/-- An active connection absorbs a segment. -/
theorem Transmits.absorb (h : c.Transmits S) (hactive : c.active = true) (stale seg : TCPSegment) :
    (c.absorb stale seg).Transmits S := by
  obtain ⟨hcarries, hext⟩ := h.carries.ackReceived stale seg.header.ackno seg.header.win
  refine ⟨hcarries, fun seg' hseg' => (h.out seg' hseg').mono hext, fun _ => ?_, fun hf => ?_⟩
  · exact (h.carries.bookkeeping.ackReceived_retransmissions _ _ _).trans (h.retx hactive)
  · rw [show c.active = false from hf] at hactive
    cases hactive

theorem Transmits.setErrors (h : c.Transmits S) :
    Transmits S { c.setErrors with active := false } :=
  ⟨h.carries.setError, fun seg hseg => h.out seg hseg, fun hf => absurd hf Bool.false_ne_true,
    fun _ => Or.inl (Or.inl rfl)⟩

/-- An unclean shutdown with a segment in the queue of the sender. -/
theorem transmits_uncleanShutdown (hcarries : c.sender.Carries S)
    (hout : ∀ seg ∈ c.segmentsOut, TCPSender.Sent S c.sender seg) (hne : c.sender.segmentsOut ≠ [])
    (stale : TCPSegment) : (c.uncleanShutdown stale).Transmits S := by
  obtain ⟨front, segs, hfront⟩ := List.exists_cons_of_ne_nil hne
  have herr := hcarries.setError
  refine ⟨?_, ?_, fun hf => absurd hf Bool.false_ne_true, fun _ => Or.inl (Or.inl rfl)⟩
  · -- the first segment leaves the queue, and the stream is in error
    refine herr.setSegmentsOut fun seg hseg => herr.queued_unstamped ?_
    exact List.mem_of_mem_tail hseg
  · intro seg hseg
    rcases List.mem_append.mp hseg with hm | hm
    · exact hout seg hm
    · rw [List.mem_singleton.mp hm]
      change TCPSender.Sent S c.sender (TCPReceiver.stampReset _ (c.sender.segmentsOut.headD stale))
      rw [hfront]
      exact (hcarries.queued front (by rw [hfront]; exact List.mem_cons_self)).stampReset _

/-- **Sending**: a connection that becomes inactive here has sent its FIN, since a settled sender at
the end of its stream with nothing in flight has. -/
theorem Transmits.sendSenderSegments (h : c.Transmits S) (hsettled : c.sender.Settled) :
    c.sendSenderSegments.Transmits S := by
  refine ⟨?_, ?_, ?_, ?_⟩
  · rw [sendSenderSegments_sender]
    exact h.carries.setSegmentsOut (by simp)
  · rw [sendSenderSegments_sender, sendSenderSegments_segmentsOut]
    intro seg hseg
    rcases List.mem_append.mp hseg with hm | hm
    · exact h.out seg hm
    · obtain ⟨seg₀, hm₀, rfl⟩ := List.mem_map.mp hm
      exact (h.carries.queued seg₀ hm₀).stamp c.receiver
  · rw [sendSenderSegments_sender]
    rcases sendSenderSegments_active (c := c) with hsame | ⟨hoff, -⟩
    · rw [hsame]
      exact h.retx
    · rw [hoff]
      exact fun hf => by cases hf
  · intro hinactive
    unfold Concluded Erred
    rw [sendSenderSegments_sender, sendSenderSegments_receiver]
    rcases sendSenderSegments_active (c := c) with hsame | ⟨-, -, heof, hbif⟩
    · exact h.concluded (hsame.symm.trans hinactive)
    · -- `clean_shutdown` has ended the connection: FIN is sent, since the stream is not open
      right
      have hnil := h.carries.bookkeeping.bytesInFlight_eq_zero_iff.mp hbif
      refine ⟨(hsettled hnil).resolve_right ?_, hbif⟩
      rintro ⟨-, hopen⟩
      rw [(ByteStream.eof_iff.mp heof).1] at hopen
      cases hopen

/-! ## The calls -/

theorem Transmits.exchange (h : c.Transmits S) (hs : c.Sound) (hactive : c.active = true)
    (hclosed : c.closed = false) (stale seg : TCPSegment) : (c.exchange stale seg).Transmits S := by
  have habsorb := h.absorb hactive stale seg
  have hsyn : (c.absorb stale seg).sender.synSent = true :=
    hs.bookkeeping.synSent_ackReceived (hs.synSent_of_not_closed hclosed) _ _ _
  have hsettled : (c.absorb stale seg).sender.Settled :=
    hs.settled.ackReceived hs.bookkeeping _ _ _
  have hne : ∀ c' : TCPConnection,
      (c'.mapSender TCPSender.sendEmptySegment).sender.segmentsOut ≠ [] := by
    intro c'
    simp [TCPSender.sendEmptySegment]
  unfold TCPConnection.exchange
  dsimp only
  -- an RST with and without an explicit answer, and the same for other segments
  split_ifs
  · have hsend := (habsorb.sendEmptySegment hsyn).sendEmptySegment hsyn
    exact transmits_uncleanShutdown hsend.carries hsend.out (hne _) stale
  · have hsend := habsorb.sendEmptySegment hsyn
    exact transmits_uncleanShutdown hsend.carries hsend.out (hne _) stale
  · exact (habsorb.sendEmptySegment hsyn).sendSenderSegments hsettled
  · exact habsorb.sendSenderSegments hsettled

/-- How most calls end: `fill_window`, and sending. -/
theorem Transmits.fill_send (h : c.Transmits S) :
    (c.mapSender TCPSender.fillWindow).sendSenderSegments.Transmits S :=
  h.fillWindow.sendSenderSegments h.carries.bookkeeping.settled_fillWindow

theorem Transmits.segmentReceived (h : c.Transmits S) (hs : c.Sound) (stale seg : TCPSegment) :
    (c.segmentReceived stale seg).Transmits S := by
  -- a receiver that takes a segment does not concern what an active connection transmits
  have hreceive : c.active = true →
      (c.heard.mapReceiver fun r => (r.segmentReceived seg).1).Transmits S := fun hactive =>
    ⟨h.carries, h.out, h.retx, fun hf => absurd (hf.symm.trans hactive) Bool.false_ne_true⟩
  rw [segmentReceived_path]
  cases hpath : c.path seg with
  | inactive => exact h
  | ignored => exact h.heard
  | answered =>
    obtain ⟨hactive, -⟩ := path_eq_answered_iff.mp hpath
    exact (hreceive hactive).fill_send
  | simultaneous =>
    obtain ⟨hactive, hstate, -⟩ := path_eq_simultaneous_iff.mp hpath
    exact (hreceive hactive).sendEmptySegment
      (hs.synSent_of_not_closed (closed_of_synSent hstate))
  | refused => exact h.heard.setErrors
  | exchanged =>
    obtain ⟨hactive, hclosed, -⟩ := path_eq_exchanged_iff.mp hpath
    exact h.heard.exchange hs.heard hactive hclosed stale seg

theorem Transmits.tick (h : c.Transmits S) (hs : c.Sound) (stale : TCPSegment) (ms : ℕ) :
    (c.tick stale ms).Transmits S := by
  obtain ⟨hk, hstream⟩ := c.sender.tick_keeps stale ms
  have hcarries := h.carries.tick stale ms
  have hout : ∀ seg ∈ c.segmentsOut, TCPSender.Sent S (c.sender.tick stale ms) seg :=
    fun seg hseg => (h.out seg hseg).mono (hk.toExtends (hstream ▸ fun he => he))
  have hsettled : (c.sender.tick stale ms).Settled := hs.settled.keeps hk
    (congrArg ByteStream.size hstream) (congrArg ByteStream.inputEnded hstream)
  unfold TCPConnection.tick
  dsimp only
  split_ifs with hinactive hlimit
  · exact h
  · have hactive : c.active = true := by simpa using hinactive
    -- the retransmission that exceeds the limit leaves a segment to put the RST on
    have hne := TCPSender.tick_segmentsOut_ne_nil ((h.retx hactive).trans_lt hlimit)
    exact (transmits_uncleanShutdown hcarries hout hne stale).sendSenderSegments hsettled
  · have hactive : c.active = true := by simpa using hinactive
    refine Transmits.sendSenderSegments ⟨hcarries, hout, fun _ => Nat.not_lt.mp hlimit, ?_⟩ hsettled
    intro hf
    rw [show c.active = false from hf] at hactive
    cases hactive

/-- The bytes that a call adds to the outbound stream. -/
def acceptedBy (c : TCPConnection) : ConnectionOp → List UInt8
  | .write data => data.take (c.write data).2
  | _ => []

/-- **Every call keeps the transmission**, provided nothing is written after the end of the input.
-/
theorem Transmits.step (h : c.Transmits S) (hs : c.Sound) (op : ConnectionOp)
    (hop : ∀ data, op = .write data → c.sender.stream.inputEnded = false) :
    (c.step op).Transmits (S ++ c.acceptedBy op) := by
  have hsame : ∀ {c' : TCPConnection}, c'.Transmits S → c'.Transmits (S ++ []) := by
    intro c' h'
    rwa [List.append_nil]
  cases op with
  | write data =>
    simp only [TCPConnection.step, TCPConnection.write, acceptedBy]
    split_ifs with hempty
    · simpa using h
    · exact (h.write (hop data rfl) data).fill_send
  | connect => exact hsame h.fill_send
  | endInputStream => exact hsame h.endInput.fill_send
  | tick stale ms => exact hsame (h.tick hs stale ms)
  | segmentReceived stale seg => exact hsame (h.segmentReceived hs stale seg)
  | read len => exact hsame ⟨h.carries, h.out, h.retx, h.concluded⟩
  | popSegment =>
    exact hsame ⟨h.carries, fun seg hseg => h.out seg (List.mem_of_mem_tail hseg), h.retx,
      h.concluded⟩

/-! ## The sender moves on -/

/-- **The sender of a connection moves on with every call.** -/
theorem Transmits.step_extends (h : c.Transmits S) (op : ConnectionOp) :
    c.sender.Extends (c.step op).sender := by
  rw [step_sender]
  exact h.carries.bookkeeping.exec (fun _ call hb hs _ => hs.trans (hb.step_extends call))
    (TCPSender.Extends.refl _)

/-- Only `end_input_stream` ends the outbound stream. -/
theorem Sound.step_inputEnded (h : c.Sound) (op : ConnectionOp) :
    (c.step op).sender.stream.inputEnded =
      (c.sender.stream.inputEnded || decide (op = .endInputStream)) := by
  have hb := h.bookkeeping
  by_cases hop : op = .endInputStream
  · subst hop
    have hended := (hb.step .endInput).fillWindow_inputEnded
    simpa [TCPConnection.step, endInputStream, TCPSender.step] using hended
  · rw [decide_eq_false hop, Bool.or_false, step_sender]
    refine hb.exec (I := fun s => s.stream.inputEnded = c.sender.stream.inputEnded)
      (fun s call hb hs hcall => (hb.step_inputEnded ?_).trans hs) rfl
    rintro rfl
    cases c.makes_of_mem_allSenderCalls op _ hcall
    exact hop rfl

end TCPConnection

end Sponge
