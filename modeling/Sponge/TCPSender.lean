import Mathlib.Tactic
import Sponge.TCPHelpers
import Sponge.ByteStream

/-!
# The sender

`TCPSender` divides its outbound stream into segments as the peer's window allows, keeps the
segments that are not yet acknowledged, and retransmits the oldest of them when its timer expires.
The window and the free space are the 16-bit numbers of the source, with their wraparound; the
absolute sequence numbers and the byte counts are natural numbers.

`front()` of an empty `std::queue` is undefined. Operations that may read it take the segment that
such a read yields as an argument, `stale`, and nothing is assumed of it.

## Main definitions

* `TCPSender` and its operations `fillWindow`, `ackReceived`, `tick`, `sendEmptySegment`
* `TCPSender.idle`: `fill_window` has nothing to send, or no leave to send it
* `SenderOp`, `TCPSender.step`: the calls a sender may see, and a run of them
-/

namespace Sponge

/-- `TCPSender` of `tcp_sender.hh`. -/
structure TCPSender where
  isn : WrappingInt32
  segmentsOut : List TCPSegment
  initialRetransmissionTimeout : UInt32
  stream : ByteStream
  nextSeqno : ℕ
  synSent : Bool
  finSent : Bool
  bytesInFlight : ℕ
  receiverWindowSize : UInt16
  receiverFreeSpace : UInt16
  consecutiveRetransmissions : UInt16
  rto : UInt32
  timeElapsed : UInt32
  timerRunning : Bool
  segmentsOutstanding : List TCPSegment
  deriving DecidableEq, Repr

namespace TCPSender

/-- A sender with the initial sequence number `isn`, fixed by the configuration or drawn at
random. -/
def new (capacity : ℕ) (retxTimeout : UInt16) (isn : WrappingInt32) : TCPSender where
  isn := isn
  segmentsOut := []
  initialRetransmissionTimeout := retxTimeout.toUInt32
  stream := ByteStream.new capacity
  nextSeqno := 0
  synSent := false
  finSent := false
  bytesInFlight := 0
  receiverWindowSize := 0
  receiverFreeSpace := 0
  consecutiveRetransmissions := 0
  rto := retxTimeout.toUInt32
  timeElapsed := 0
  timerRunning := false
  segmentsOutstanding := []

/-- The segment `seg` at the next sequence number. -/
def numbered (s : TCPSender) (seg : TCPSegment) : TCPSegment :=
  { seg with header := { seg.header with seqno := wrap s.nextSeqno s.isn } }

/-- Send a new segment: it is numbered, counted and queued twice, for the network and for
retransmission, and the timer is started unless it runs. -/
def sendSegment (s : TCPSender) (seg : TCPSegment) : TCPSender :=
  let length := seg.lengthInSequenceSpace
  { s with
    nextSeqno := s.nextSeqno + length
    bytesInFlight := s.bytesInFlight + length
    -- 16-bit subtraction: a probe of a zero window leaves `65535`
    receiverFreeSpace :=
      if s.synSent then s.receiverFreeSpace - UInt16.ofNat length else s.receiverFreeSpace
    segmentsOut := s.segmentsOut ++ [s.numbered seg]
    segmentsOutstanding := s.segmentsOutstanding ++ [s.numbered seg]
    timerRunning := true
    timeElapsed := if s.timerRunning then s.timeElapsed else 0 }

/-- One round of the loop of `fill_window`: as much payload as the stream, the free space and the
maximal payload allow, with FIN if the stream has ended and there is room for it. -/
def fillRound (s : TCPSender) : TCPSender :=
  let payloadSize :=
    min s.stream.bufferSize (min s.receiverFreeSpace.toNat TCPConfig.maxPayloadSize)
  let (stream, payload) := s.stream.read payloadSize
  let fin := stream.eof && decide (payloadSize < s.receiverFreeSpace.toNat)
  { s with stream := stream, finSent := s.finSent || fin }.sendSegment
    { header := { fin := fin }, payload := payload }

/-- The loop of `fill_window`. Each round that does not leave the loop uses up free space, so
the free space bounds the number of rounds. -/
def fillLoop : ℕ → TCPSender → TCPSender
  | 0, s => s
  | n + 1, s =>
    if s.receiverFreeSpace ≠ 0 then
      -- the loop is left from inside when the stream is exhausted
      let s := s.fillRound
      if s.stream.bufferEmpty then s else fillLoop n s
    else s

/-- What is sent into a zero window: FIN alone if the stream has ended, otherwise one byte. -/
def probe (s : TCPSender) : TCPSender :=
  if s.stream.eof then
    { s with finSent := true }.sendSegment { header := { fin := true } }
  else if !s.stream.bufferEmpty then
    let (stream, payload) := s.stream.read 1
    { s with stream := stream }.sendSegment { payload := payload }
  else s

/-- The oldest outstanding segment is the SYN. -/
def synOutstanding (s : TCPSender) : Bool :=
  s.segmentsOutstanding.head?.any fun seg => seg.header.syn

/-- Create and send segments to fill as much of the window as possible. -/
def fillWindow (s : TCPSender) : TCPSender :=
  if !s.synSent then
    { s with synSent := true }.sendSegment { header := { syn := true } }
  else if s.synOutstanding then s
  -- nothing to send now, but more may come
  else if s.stream.bufferSize == 0 && !s.stream.eof then s
  else if s.finSent then s
  else if s.receiverWindowSize ≠ 0 then s.fillLoop s.receiverFreeSpace.toNat
  else if s.receiverFreeSpace = 0 then s.probe
  else s

/-- The absolute sequence number of a segment, recovered next to the next sequence number. -/
def absSeqno (s : TCPSender) (seg : TCPSegment) : ℕ :=
  unwrap seg.header.seqno s.isn s.nextSeqno

/-- The acknowledgment lies between the oldest outstanding segment and the next sequence number. -/
def ackValid (s : TCPSender) (stale : TCPSegment) (absAckno : ℕ) : Bool :=
  decide (absAckno ≤ s.nextSeqno) &&
    decide (s.absSeqno (s.segmentsOutstanding.headD stale) ≤ absAckno)

/-- The acknowledgment covers the whole segment. -/
def covers (s : TCPSender) (absAckno : ℕ) (seg : TCPSegment) : Bool :=
  decide (s.absSeqno seg + seg.lengthInSequenceSpace ≤ absAckno)

/-- The loop of `ack_received` over the outstanding queue: segments that are fully acknowledged
leave it, and each restarts the timer. -/
def popAcked (absAckno : ℕ) : List TCPSegment → TCPSender → TCPSender
  | [], s => s
  | seg :: segs, s =>
    if s.covers absAckno seg then
      popAcked absAckno segs
        { s with
          bytesInFlight := s.bytesInFlight - seg.lengthInSequenceSpace
          segmentsOutstanding := segs
          timeElapsed := 0
          rto := s.initialRetransmissionTimeout
          consecutiveRetransmissions := 0 }
    else s

/-- The room behind what has been sent: `abs_ackno + window_size` less the end of the outstanding
segments, in 64 bits and narrowed to 16. -/
def freeSpace (s : TCPSender) (front : TCPSegment) (absAckno : ℕ) (windowSize : UInt16) : UInt16 :=
  (UInt64.ofNat absAckno + windowSize.toUInt64 - UInt64.ofNat (s.absSeqno front) -
    UInt64.ofNat s.bytesInFlight).toUInt16

/-- The state in which `ack_received` calls `fill_window`: the window is recorded, acknowledged
segments are gone, and the free space is computed anew. -/
def acknowledged (s : TCPSender) (absAckno : ℕ) (windowSize : UInt16) : TCPSender :=
  let s := { s with receiverWindowSize := windowSize, receiverFreeSpace := windowSize }
  let s := popAcked absAckno s.segmentsOutstanding s
  -- with segments left in the queue the window is not all free
  let s :=
    { s with
      receiverFreeSpace :=
        match s.segmentsOutstanding with
        | [] => s.receiverFreeSpace
        | front :: _ => s.freeSpace front absAckno windowSize }
  { s with timerRunning := s.timerRunning && s.bytesInFlight != 0 }

/-- A new acknowledgment and window of the peer. -/
def ackReceived (s : TCPSender) (stale : TCPSegment) (ackno : WrappingInt32)
    (windowSize : UInt16) : TCPSender :=
  let absAckno := unwrap ackno s.isn s.nextSeqno
  if s.ackValid stale absAckno then (s.acknowledged absAckno windowSize).fillWindow else s

/-- Time passes; when the timer expires the oldest outstanding segment is sent again. -/
def tick (s : TCPSender) (stale : TCPSegment) (msSinceLastTick : ℕ) : TCPSender :=
  if !s.timerRunning then s
  else
    let s := { s with timeElapsed := s.timeElapsed + UInt32.ofNat msSinceLastTick }
    if s.rto ≤ s.timeElapsed then
      let front := s.segmentsOutstanding.headD stale
      let s := { s with segmentsOut := s.segmentsOut ++ [front] }
      -- a probe of a zero window does not count and is not slowed down
      let s :=
        if s.receiverWindowSize ≠ 0 ∨ front.header.syn = true then
          { s with
            consecutiveRetransmissions := s.consecutiveRetransmissions + 1
            rto := s.rto <<< 1 }
        else s
      { s with timeElapsed := 0 }
    else s

/-- Queue an empty segment, which is neither counted nor retransmitted. -/
def sendEmptySegment (s : TCPSender) : TCPSender :=
  { s with segmentsOut := s.segmentsOut ++ [s.numbered {}] }

/-- Apply `f` to the outbound stream. -/
def mapStreamIn (f : ByteStream → ByteStream) (s : TCPSender) : TCPSender :=
  { s with stream := f s.stream }

@[simp] theorem mapStreamIn_stream (f : ByteStream → ByteStream) (s : TCPSender) :
    (s.mapStreamIn f).stream = f s.stream := rfl

/-- `fill_window` sends nothing: the SYN is not acknowledged, there is nothing to send, FIN has been
sent, or the window does not allow it. -/
def idle (s : TCPSender) : Bool :=
  s.synOutstanding || (s.stream.bufferSize == 0 && !s.stream.eof) || s.finSent ||
    (if s.receiverWindowSize ≠ 0 then s.receiverFreeSpace == 0 else s.receiverFreeSpace != 0)

end TCPSender

/-! ## Runs -/

/-- What the owner of a sender may do with it. The acknowledgments and the times are arbitrary, and
so is the segment that `front()` of an empty queue yields. -/
inductive SenderOp where
  | write (data : List UInt8)
  | endInput
  | setError
  | fillWindow
  | ackReceived (stale : TCPSegment) (ackno : WrappingInt32) (windowSize : UInt16)
  | tick (stale : TCPSegment) (msSinceLastTick : ℕ)
  | sendEmptySegment
  /-- the owner takes a segment from `segments_out()` -/
  | popSegment
  deriving DecidableEq, Repr

/-- One call. -/
def TCPSender.step (s : TCPSender) : SenderOp → TCPSender
  | .write data => s.mapStreamIn fun stream => (stream.write data).1
  | .endInput => s.mapStreamIn ByteStream.endInput
  | .setError => s.mapStreamIn ByteStream.setError
  | .fillWindow => s.fillWindow
  | .ackReceived stale ackno windowSize => s.ackReceived stale ackno windowSize
  | .tick stale msSinceLastTick => s.tick stale msSinceLastTick
  | .sendEmptySegment => s.sendEmptySegment
  | .popSegment => { s with segmentsOut := s.segmentsOut.tail }

end Sponge
