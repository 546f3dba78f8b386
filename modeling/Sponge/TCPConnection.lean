import Mathlib.Tactic
import Sponge.Foundations.Run
import Sponge.TCPReceiver
import Sponge.TCPSender.Progress

/-!
# The connection

`TCPConnection` joins a sender and a receiver to one endpoint. It hands arriving segments to the
receiver and their acknowledgments to the sender, stamps the segments of the sender with the
acknowledgment of the receiver, and decides when the connection is over: cleanly, when both streams
are done, or uncleanly, with a RST.

Reads of `front()` on an empty queue yield the argument `stale`.

## Main definitions

* `TCPConnection` and its operations `connect`, `write`, `endInputStream`, `tick`, `segmentReceived`
* `TCPReceiver.stamp`: the acknowledgment on an outgoing segment
* `ConnectionOp`, `TCPConnection.step`: the calls an endpoint may see, and a run of them

## Main results

* `TCPConnection.segmentReceived_path`: what `segment_received` does on each path
* `TCPConnection.Sound`, `TCPConnection.Sound.step`: the invariant of every run
-/

namespace Sponge

/-- `TCPConnection` of `tcp_connection.hh`. -/
structure TCPConnection where
  cfg : TCPConfig
  receiver : TCPReceiver
  sender : TCPSender
  segmentsOut : List TCPSegment
  lingerAfterStreamsFinish : Bool
  timeSinceLastSegmentReceived : ℕ
  active : Bool
  deriving DecidableEq, Repr

/-- An outgoing segment carries the acknowledgment number and the window, once there is one. The
window is narrowed to its 16-bit field. -/
def TCPReceiver.stamp (r : TCPReceiver) (seg : TCPSegment) : TCPSegment :=
  match r.ackno with
  | some ackno =>
    { seg with
      header :=
        { seg.header with ack := true, ackno := ackno, win := UInt16.ofNat r.windowSize } }
  | none => seg

/-- The RST of an unclean shutdown: `ack` is set in any case, `ackno` only if there is one. -/
def TCPReceiver.stampReset (r : TCPReceiver) (seg : TCPSegment) : TCPSegment :=
  { seg with
    header :=
      { seg.header with
        ack := true
        ackno := r.ackno.getD seg.header.ackno
        win := UInt16.ofNat r.windowSize
        rst := true } }

/-- The paths of `segment_received`. -/
inductive ArrivalPath where
  | inactive
  | ignored
  /-- the first SYN, answered with a SYN -/
  | answered
  /-- a SYN without acknowledgment after the own SYN -/
  | simultaneous
  /-- the own SYN is refused -/
  | refused
  /-- the segment goes to the receiver and its acknowledgment to the sender -/
  | exchanged
  deriving DecidableEq, Repr

namespace TCPConnection

/-- A connection with the given configuration; `randomIsn` is the initial sequence number that is
drawn if the configuration fixes none. -/
def new (cfg : TCPConfig) (randomIsn : WrappingInt32) : TCPConnection where
  cfg := cfg
  receiver := TCPReceiver.new cfg.recvCapacity
  sender := TCPSender.new cfg.sendCapacity cfg.rtTimeout (cfg.fixedIsn.getD randomIsn)
  segmentsOut := []
  lingerAfterStreamsFinish := true
  timeSinceLastSegmentReceived := 0
  active := true

/-- Apply `f` to the sender. -/
def mapSender (f : TCPSender → TCPSender) (c : TCPConnection) : TCPConnection :=
  { c with sender := f c.sender }

/-- Apply `f` to the receiver. -/
def mapReceiver (f : TCPReceiver → TCPReceiver) (c : TCPConnection) : TCPConnection :=
  { c with receiver := f c.receiver }

/-- Both streams are set to error. -/
def setErrors (c : TCPConnection) : TCPConnection :=
  (c.mapReceiver (TCPReceiver.mapStreamOut ByteStream.setError)).mapSender
    (TCPSender.mapStreamIn ByteStream.setError)

/-- The connection ends when both streams are done and everything is acknowledged; the endpoint that
ends first lingers. -/
def cleanShutdown (c : TCPConnection) : TCPConnection :=
  if c.receiver.streamOut.inputEnded then
    -- the peer has finished first: it is the peer that lingers
    if !c.sender.stream.eof then { c with lingerAfterStreamsFinish := false }
    else if c.sender.bytesInFlight = 0 then
      if !c.lingerAfterStreamsFinish ||
          decide (10 * c.cfg.rtTimeout.toNat ≤ c.timeSinceLastSegmentReceived) then
        { c with active := false }
      else c
    else c
  else c

/-- The loop of `send_sender_segments`: the segments of the sender move to the outbound queue, each
with its stamp. -/
def drain : List TCPSegment → TCPConnection → TCPConnection
  | [], c => c
  | seg :: segs, c =>
    drain segs
      { c with
        sender := { c.sender with segmentsOut := segs }
        segmentsOut := c.segmentsOut ++ [c.receiver.stamp seg] }

def sendSenderSegments (c : TCPConnection) : TCPConnection :=
  (drain c.sender.segmentsOut c).cleanShutdown

/-- The connection ends with a RST on the next segment of the sender. -/
def uncleanShutdown (c : TCPConnection) (stale : TCPSegment) : TCPConnection :=
  let c := c.setErrors
  let seg := c.sender.segmentsOut.headD stale
  { c with
    active := false
    sender := { c.sender with segmentsOut := c.sender.segmentsOut.tail }
    segmentsOut := c.segmentsOut ++ [c.receiver.stampReset seg] }

/-- Send the SYN. -/
def connect (c : TCPConnection) : TCPConnection :=
  (c.mapSender TCPSender.fillWindow).sendSenderSegments

/-- Write to the outbound stream; the second component is the number of bytes accepted. -/
def write (c : TCPConnection) (data : List UInt8) : TCPConnection × ℕ :=
  if data.length = 0 then (c, 0)
  else
    let writeSize := (c.sender.stream.write data).2
    let c := c.mapSender (TCPSender.mapStreamIn fun stream => (stream.write data).1)
    ((c.mapSender TCPSender.fillWindow).sendSenderSegments, writeSize)

/-- End the outbound stream. -/
def endInputStream (c : TCPConnection) : TCPConnection :=
  let c := c.mapSender (TCPSender.mapStreamIn ByteStream.endInput)
  (c.mapSender TCPSender.fillWindow).sendSenderSegments

/-- Time passes; too many retransmissions end the connection. -/
def tick (c : TCPConnection) (stale : TCPSegment) (msSinceLastTick : ℕ) : TCPConnection :=
  if !c.active then c
  else
    let c :=
      { c with timeSinceLastSegmentReceived := c.timeSinceLastSegmentReceived + msSinceLastTick }
    let c := c.mapSender fun s => s.tick stale msSinceLastTick
    let c :=
      if TCPConfig.maxRetxAttempts < c.sender.consecutiveRetransmissions.toNat then
        c.uncleanShutdown stale
      else c
    c.sendSenderSegments

/-- The receiver takes the segment, and the sender its acknowledgment, whether or not the segment
has the ACK flag. -/
def absorb (c : TCPConnection) (stale : TCPSegment) (seg : TCPSegment) : TCPConnection :=
  (c.mapReceiver fun r => (r.segmentReceived seg).1).mapSender fun s =>
    s.ackReceived stale seg.header.ackno seg.header.win

/-- The last part of `segment_received`: the segment is absorbed and the answer is sent. -/
def exchange (c : TCPConnection) (stale : TCPSegment) (seg : TCPSegment) : TCPConnection :=
  let c := c.absorb stale seg
  -- `fill_window` has sent nothing if the stream was empty
  let c :=
    if c.sender.stream.bufferEmpty && seg.lengthInSequenceSpace != 0 then
      c.mapSender TCPSender.sendEmptySegment
    else c
  if seg.header.rst then (c.mapSender TCPSender.sendEmptySegment).uncleanShutdown stale
  else c.sendSenderSegments

/-- `CLOSED`: nothing has been received or sent. -/
def closed (c : TCPConnection) : Bool :=
  c.receiver.ackno.isNone && c.sender.nextSeqno == 0

/-- `SYN_SENT`: nothing has been received, and of what was sent nothing is acknowledged. -/
def synSent (c : TCPConnection) : Bool :=
  decide (0 < c.sender.nextSeqno) && c.sender.bytesInFlight == c.sender.nextSeqno &&
    c.receiver.ackno.isNone

/-- A segment arrives. -/
def segmentReceived (c : TCPConnection) (stale : TCPSegment) (seg : TCPSegment) :
    TCPConnection :=
  if !c.active then c
  else
    let c := { c with timeSinceLastSegmentReceived := 0 }
    if c.closed then
      -- only a SYN opens a connection
      if !seg.header.syn then c
      else (c.mapReceiver fun r => (r.segmentReceived seg).1).connect
    else if c.synSent then
      if seg.payload.length ≠ 0 then c
      else if !seg.header.ack then
        if seg.header.syn then
          -- simultaneous open; the answer stays with the sender until the next call
          (c.mapReceiver fun r => (r.segmentReceived seg).1).mapSender
            TCPSender.sendEmptySegment
        else c
      else if seg.header.rst then { c.setErrors with active := false }
      else c.exchange stale seg
    else c.exchange stale seg

/-- The destructor shuts an active connection down, with a RST on an empty segment. -/
def destructor (c : TCPConnection) (stale : TCPSegment) : TCPConnection :=
  if c.active then (c.mapSender TCPSender.sendEmptySegment).uncleanShutdown stale else c

end TCPConnection

/-! ## Runs -/

/-- What happens to an endpoint: the calls of its application and its owner, the arrival of a
segment, a read of the inbound stream, and the removal of a segment from `segments_out()`. -/
inductive ConnectionOp where
  | connect
  | write (data : List UInt8)
  | endInputStream
  | tick (stale : TCPSegment) (msSinceLastTick : ℕ)
  | segmentReceived (stale : TCPSegment) (seg : TCPSegment)
  | read (len : ℕ)
  | popSegment
  deriving DecidableEq, Repr

def TCPConnection.step (c : TCPConnection) : ConnectionOp → TCPConnection
  | .connect => c.connect
  | .write data => (c.write data).1
  | .endInputStream => c.endInputStream
  | .tick stale msSinceLastTick => c.tick stale msSinceLastTick
  | .segmentReceived stale seg => c.segmentReceived stale seg
  | .read len => c.mapReceiver (TCPReceiver.mapStreamOut fun s => (s.read len).1)
  | .popSegment => { c with segmentsOut := c.segmentsOut.tail }

namespace TCPConnection

variable {c : TCPConnection}

/-! ## Sending and closing -/

theorem drain_eq (segs : List TCPSegment) (h : c.sender.segmentsOut = segs) :
    drain segs c =
      { c with
        sender := { c.sender with segmentsOut := [] }
        segmentsOut := c.segmentsOut ++ segs.map c.receiver.stamp } := by
  induction segs generalizing c with
  | nil =>
    -- the queue was empty to begin with
    have hsender : { c.sender with segmentsOut := [] } = c.sender := by rw [← h]
    rw [drain, hsender, List.map_nil, List.append_nil]
  | cons seg segs ih =>
    rw [drain, ih rfl]
    simp

/-- **What `clean_shutdown` does**: it may stop lingering, or it ends the connection with both
streams done and everything acknowledged. -/
theorem cleanShutdown_cases (c : TCPConnection) :
    (∃ linger, c.cleanShutdown = { c with lingerAfterStreamsFinish := linger }) ∨
      (c.receiver.streamOut.inputEnded = true ∧ c.sender.stream.eof = true ∧
        c.sender.bytesInFlight = 0 ∧ c.cleanShutdown = { c with active := false }) := by
  unfold cleanShutdown
  -- the peer has closed first; both sides are done; or one of the tests has failed
  split_ifs with hended heof hbif hlinger
  · exact Or.inl ⟨false, rfl⟩
  · exact Or.inr ⟨hended, by simpa using heof, hbif, rfl⟩
  · exact Or.inl ⟨c.lingerAfterStreamsFinish, rfl⟩
  · exact Or.inl ⟨c.lingerAfterStreamsFinish, rfl⟩
  · exact Or.inl ⟨c.lingerAfterStreamsFinish, rfl⟩

section Fields

variable (c)

@[simp] theorem cleanShutdown_sender : c.cleanShutdown.sender = c.sender := by
  rcases c.cleanShutdown_cases with ⟨_, h⟩ | ⟨-, -, -, h⟩ <;> rw [h]

@[simp] theorem cleanShutdown_receiver : c.cleanShutdown.receiver = c.receiver := by
  rcases c.cleanShutdown_cases with ⟨_, h⟩ | ⟨-, -, -, h⟩ <;> rw [h]

@[simp] theorem cleanShutdown_segmentsOut : c.cleanShutdown.segmentsOut = c.segmentsOut := by
  rcases c.cleanShutdown_cases with ⟨_, h⟩ | ⟨-, -, -, h⟩ <;> rw [h]

@[simp] theorem sendSenderSegments_sender :
    c.sendSenderSegments.sender = { c.sender with segmentsOut := [] } := by
  rw [sendSenderSegments, drain_eq _ rfl, cleanShutdown_sender]

@[simp] theorem sendSenderSegments_receiver : c.sendSenderSegments.receiver = c.receiver := by
  rw [sendSenderSegments, drain_eq _ rfl, cleanShutdown_receiver]

@[simp] theorem sendSenderSegments_segmentsOut :
    c.sendSenderSegments.segmentsOut =
      c.segmentsOut ++ c.sender.segmentsOut.map c.receiver.stamp := by
  rw [sendSenderSegments, drain_eq _ rfl, cleanShutdown_segmentsOut]

@[simp] theorem uncleanShutdown_sender (stale : TCPSegment) :
    (c.uncleanShutdown stale).sender =
      { c.sender with
        stream := c.sender.stream.setError, segmentsOut := c.sender.segmentsOut.tail } := rfl

@[simp] theorem mapSender_sender (f : TCPSender → TCPSender) :
    (c.mapSender f).sender = f c.sender := rfl

@[simp] theorem mapSender_receiver (f : TCPSender → TCPSender) :
    (c.mapSender f).receiver = c.receiver := rfl

@[simp] theorem mapSender_segmentsOut (f : TCPSender → TCPSender) :
    (c.mapSender f).segmentsOut = c.segmentsOut := rfl

@[simp] theorem mapSender_active (f : TCPSender → TCPSender) :
    (c.mapSender f).active = c.active := rfl

@[simp] theorem mapReceiver_sender (f : TCPReceiver → TCPReceiver) :
    (c.mapReceiver f).sender = c.sender := rfl

@[simp] theorem mapReceiver_segmentsOut (f : TCPReceiver → TCPReceiver) :
    (c.mapReceiver f).segmentsOut = c.segmentsOut := rfl

@[simp] theorem absorb_sender (stale seg : TCPSegment) :
    (c.absorb stale seg).sender =
      c.sender.ackReceived stale seg.header.ackno seg.header.win := rfl

@[simp] theorem mapReceiver_active (f : TCPReceiver → TCPReceiver) :
    (c.mapReceiver f).active = c.active := rfl

end Fields

/-- A connection that becomes inactive by sending has both streams done and all acknowledged. -/
theorem sendSenderSegments_active :
    c.sendSenderSegments.active = c.active ∨
      (c.sendSenderSegments.active = false ∧ c.receiver.streamOut.inputEnded = true ∧
        c.sender.stream.eof = true ∧ c.sender.bytesInFlight = 0) := by
  rw [sendSenderSegments, drain_eq _ rfl]
  rcases cleanShutdown_cases { c with
      sender := { c.sender with segmentsOut := [] }
      segmentsOut := c.segmentsOut ++ c.sender.segmentsOut.map c.receiver.stamp } with
    ⟨_, h⟩ | ⟨hended, heof, hbif, h⟩
  · exact Or.inl (by rw [h])
  · exact Or.inr ⟨by rw [h], hended, heof, hbif⟩

/-! ## The paths of `segment_received` -/

/-- The connection has heard from its peer. -/
def heard (c : TCPConnection) : TCPConnection :=
  { c with timeSinceLastSegmentReceived := 0 }

@[simp] theorem heard_sender (c : TCPConnection) : c.heard.sender = c.sender := rfl

/-- The path that a segment takes. -/
def path (c : TCPConnection) (seg : TCPSegment) : ArrivalPath :=
  if !c.active then .inactive
  else if c.closed then
    if !seg.header.syn then .ignored else .answered
  else if c.synSent then
    if seg.payload.length ≠ 0 then .ignored
    else if !seg.header.ack then
      if seg.header.syn then .simultaneous else .ignored
    else if seg.header.rst then .refused
    else .exchanged
  else .exchanged

theorem isn_eq_none_of_closed (h : c.closed = true) : c.receiver.isn = none := by
  simp only [closed, TCPReceiver.ackno, Option.isNone_map, Bool.and_eq_true,
    Option.isNone_iff_eq_none] at h
  exact h.1

theorem isn_eq_none_of_synSent (h : c.synSent = true) : c.receiver.isn = none := by
  simp only [synSent, TCPReceiver.ackno, Option.isNone_map, Bool.and_eq_true,
    Option.isNone_iff_eq_none] at h
  exact h.2

/-- **What `segment_received` does**, path by path. -/
theorem segmentReceived_path (c : TCPConnection) (stale seg : TCPSegment) :
    c.segmentReceived stale seg =
      match c.path seg with
      | .inactive => c
      | .ignored => c.heard
      | .answered => (c.heard.mapReceiver fun r => (r.segmentReceived seg).1).connect
      | .simultaneous =>
        (c.heard.mapReceiver fun r => (r.segmentReceived seg).1).mapSender
          TCPSender.sendEmptySegment
      | .refused => { c.heard.setErrors with active := false }
      | .exchanged => c.heard.exchange stale seg := by
  unfold segmentReceived path
  -- the tests of the source do not read the clock
  change (if _ then _ else if c.closed = true then _ else if c.synSent = true then _ else _) = _
  split_ifs <;> rfl

theorem path_eq_inactive_iff {seg : TCPSegment} :
    c.path seg = .inactive ↔ c.active = false := by
  unfold path
  split_ifs with hactive <;> simp_all

/-- When the acknowledgment of a segment reaches the sender. -/
theorem path_eq_exchanged_iff {seg : TCPSegment} :
    c.path seg = .exchanged ↔ c.active = true ∧ c.closed = false ∧
      (c.synSent = true →
        seg.payload = [] ∧ seg.header.ack = true ∧ seg.header.rst = false) := by
  unfold path
  split_ifs <;> simp_all

/-- Once the SYN of the peer is known, an active connection processes what arrives. -/
theorem path_of_isn {seg : TCPSegment} (hactive : c.active = true)
    (hisn : c.receiver.isn.isSome = true) : c.path seg = .exchanged := by
  rw [Option.isSome_iff_ne_none] at hisn
  refine path_eq_exchanged_iff.mpr ⟨hactive, ?_, fun hstate => ?_⟩
  · by_contra hclosed
    exact hisn (isn_eq_none_of_closed (by simpa using hclosed))
  · exact absurd (isn_eq_none_of_synSent hstate) hisn

theorem closed_of_synSent (h : c.synSent = true) : c.closed = false := by
  simp only [synSent, Bool.and_eq_true, decide_eq_true_eq] at h
  simp [closed, h.1.1.ne']

theorem path_eq_simultaneous_iff {seg : TCPSegment} :
    c.path seg = .simultaneous ↔ c.active = true ∧ c.synSent = true ∧ seg.payload = [] ∧
      seg.header.syn = true ∧ seg.header.ack = false := by
  have hclosed := closed_of_synSent (c := c)
  unfold path
  split_ifs <;> simp_all

/-- Segments are ignored only before the SYN of the peer. -/
theorem closed_or_synSent_of_ignored {seg : TCPSegment} (hpath : c.path seg = .ignored) :
    c.closed = true ∨ c.synSent = true := by
  unfold path at hpath
  split_ifs at hpath with _ hclosed _ hstate
  · exact Or.inl hclosed
  · exact Or.inr hstate
  · exact Or.inr hstate

/-- The first SYN is answered. -/
theorem path_eq_answered_iff {seg : TCPSegment} :
    c.path seg = .answered ↔ c.active = true ∧ c.closed = true ∧ seg.header.syn = true := by
  unfold path
  split_ifs <;> simp_all

/-- Refused is a SYN by a segment with both flags. -/
theorem flags_of_refused {seg : TCPSegment} (hpath : c.path seg = .refused) :
    seg.header.ack = true ∧ seg.header.rst = true := by
  unfold path at hpath
  split_ifs at hpath with _ _ _ _ _ hack _ hrst
  exact ⟨by simpa using hack, hrst⟩

/-! ## The invariant of every run -/

/-- **The sender is sound**: its bookkeeping is right and it is settled, and it has sent its SYN if
the SYN of the peer has arrived. -/
structure Sound (c : TCPConnection) : Prop where
  bookkeeping : c.sender.Bookkeeping
  settled : c.sender.Settled
  synSent_of_isn : c.receiver.isn.isSome = true → c.sender.synSent = true

theorem sound_new (cfg : TCPConfig) (randomIsn : WrappingInt32) : (new cfg randomIsn).Sound where
  bookkeeping := TCPSender.bookkeeping_new _ _ _
  settled := fun _ => Or.inr ⟨rfl, rfl⟩
  synSent_of_isn := fun h => by cases h

/-- The SYN has been sent unless the connection is closed. -/
theorem Sound.synSent_of_not_closed (h : c.Sound) (hclosed : c.closed = false) :
    c.sender.synSent = true := by
  cases hisn : c.receiver.isn.isSome with
  | true => exact h.synSent_of_isn hisn
  | false =>
    -- nothing has been received, so something was sent
    have hnext : c.sender.nextSeqno ≠ 0 := by
      have hnone : c.receiver.isn = none := by simpa using hisn
      simpa [closed, TCPReceiver.ackno, hnone] using hclosed
    exact h.bookkeeping.synSent_iff.mpr (Nat.pos_of_ne_zero hnext)

theorem Sound.sendSenderSegments (h : c.Sound) : c.sendSenderSegments.Sound where
  bookkeeping := by
    rw [sendSenderSegments_sender]
    exact h.bookkeeping.keeps (c.sender.setSegmentsOut_keeps _) h.bookkeeping.wellFormed
  settled := by
    rw [sendSenderSegments_sender]
    exact h.settled
  synSent_of_isn := by
    rw [sendSenderSegments_sender, sendSenderSegments_receiver]
    exact h.synSent_of_isn

theorem Sound.heard (h : c.Sound) : c.heard.Sound :=
  ⟨h.bookkeeping, h.settled, h.synSent_of_isn⟩

theorem Sound.setErrors (h : c.Sound) : c.setErrors.Sound where
  bookkeeping :=
    h.bookkeeping.keeps (c.sender.mapStreamIn_keeps _) h.bookkeeping.wellFormed.setError
  settled := h.settled
  synSent_of_isn := h.synSent_of_isn

theorem Sound.uncleanShutdown (h : c.Sound) (stale : TCPSegment) :
    (c.uncleanShutdown stale).Sound where
  bookkeeping := h.setErrors.bookkeeping.keeps (c.setErrors.sender.setSegmentsOut_keeps _)
    h.setErrors.bookkeeping.wellFormed
  settled := h.settled
  synSent_of_isn := h.synSent_of_isn

theorem Sound.sendEmptySegment (h : c.Sound) :
    (c.mapSender TCPSender.sendEmptySegment).Sound where
  bookkeeping := h.bookkeeping.keeps (c.sender.setSegmentsOut_keeps _) h.bookkeeping.wellFormed
  settled := h.settled
  synSent_of_isn := h.synSent_of_isn

/-- `fill_window` makes a connection sound, if the bookkeeping is right. -/
theorem sound_fillWindow (h : c.sender.Bookkeeping) : (c.mapSender TCPSender.fillWindow).Sound where
  bookkeeping := h.fillWindow
  settled := h.settled_fillWindow
  synSent_of_isn := fun _ => h.synSent_fillWindow

theorem sound_connect (h : c.sender.Bookkeeping) : c.connect.Sound :=
  (sound_fillWindow h).sendSenderSegments

theorem Sound.exchange (h : c.Sound) (hclosed : c.closed = false) (stale seg : TCPSegment) :
    (c.exchange stale seg).Sound := by
  have hsyn := h.synSent_of_not_closed hclosed
  -- the receiver may know its peer now, but the SYN was sent before
  have hack : (c.absorb stale seg).Sound :=
    ⟨h.bookkeeping.ackReceived _ _ _, h.settled.ackReceived h.bookkeeping _ _ _,
      fun _ => h.bookkeeping.synSent_ackReceived hsyn _ _ _⟩
  unfold TCPConnection.exchange
  dsimp only
  split_ifs
  · exact hack.sendEmptySegment.sendEmptySegment.uncleanShutdown stale
  · exact hack.sendEmptySegment.uncleanShutdown stale
  · exact hack.sendEmptySegment.sendSenderSegments
  · exact hack.sendSenderSegments

theorem Sound.segmentReceived (h : c.Sound) (stale seg : TCPSegment) :
    (c.segmentReceived stale seg).Sound := by
  rw [segmentReceived_path]
  cases hpath : c.path seg with
  | inactive => exact h
  | ignored => exact h.heard
  | answered => exact sound_connect h.bookkeeping
  | simultaneous =>
    -- the receiver learns its peer here without `fill_window`
    obtain ⟨-, hstate, -⟩ := path_eq_simultaneous_iff.mp hpath
    have hsyn := h.synSent_of_not_closed (closed_of_synSent hstate)
    exact Sound.sendEmptySegment ⟨h.bookkeeping, h.settled, fun _ => hsyn⟩
  | refused =>
    have herr := h.heard.setErrors
    exact ⟨herr.bookkeeping, herr.settled, herr.synSent_of_isn⟩
  | exchanged =>
    obtain ⟨-, hclosed, -⟩ := path_eq_exchanged_iff.mp hpath
    exact h.heard.exchange hclosed stale seg

theorem Sound.tick (h : c.Sound) (stale : TCPSegment) (ms : ℕ) : (c.tick stale ms).Sound := by
  obtain ⟨hk, hstream⟩ := c.sender.tick_keeps stale ms
  have hticked : ∀ time, Sound { c with
      timeSinceLastSegmentReceived := time, sender := c.sender.tick stale ms } := fun _ =>
    ⟨h.bookkeeping.keeps hk (hstream.symm ▸ h.bookkeeping.wellFormed),
      h.settled.keeps hk (congrArg ByteStream.size hstream)
        (congrArg ByteStream.inputEnded hstream),
      fun hisn => hk.synSent_eq.trans (h.synSent_of_isn hisn)⟩
  unfold TCPConnection.tick
  dsimp only
  split_ifs
  · exact h
  · exact ((hticked _).uncleanShutdown stale).sendSenderSegments
  · exact (hticked _).sendSenderSegments

/-- **Every call keeps a connection sound.** -/
theorem Sound.step (h : c.Sound) (op : ConnectionOp) : (c.step op).Sound := by
  cases op with
  | connect => exact sound_connect h.bookkeeping
  | write data =>
    simp only [TCPConnection.step, TCPConnection.write]
    split_ifs
    · exact h
    · exact (sound_fillWindow (h.bookkeeping.keeps
        (c.sender.mapStreamIn_keeps fun stream => (stream.write data).1)
        (h.bookkeeping.wellFormed.write data))).sendSenderSegments
  | endInputStream =>
    exact (sound_fillWindow (h.bookkeeping.keeps (c.sender.mapStreamIn_keeps _)
      h.bookkeeping.wellFormed.endInput)).sendSenderSegments
  | tick stale ms => exact h.tick stale ms
  | segmentReceived stale seg => exact h.segmentReceived stale seg
  | read len => exact ⟨h.bookkeeping, h.settled, h.synSent_of_isn⟩
  | popSegment => exact ⟨h.bookkeeping, h.settled, h.synSent_of_isn⟩

theorem sound_run (cfg : TCPConfig) (randomIsn : WrappingInt32) (ops : List ConnectionOp) :
    (Run.exec step (new cfg randomIsn) ops).Sound :=
  Run.preserved (fun _ op h => h.step op) (sound_new cfg randomIsn) ops

end TCPConnection

end Sponge
