import Mathlib.Tactic
import Sponge.TCPConnection.Conduct
import Sponge.TCPHelpers.TCPState
import Sponge.Util.EventLoop

/-!
# The socket

`TCPSpongeSocket` gives a connection to an application and to a network: what the application writes
to a local stream socket is written to the connection, what the connection has received goes back
the same way, and segments are exchanged with the peer through an adapter. Four rules of an event
loop do this, and after each turn the connection is told the time.

## Main definitions

* `TCPSpongeSocket`, `SocketRule`, `TCPSpongeSocket.rule`: the socket and its rules
* `SocketLoop.turn`, `SocketLoop.tcpLoop`: the loop of the thread
* `SocketLoop.connect`, `SocketLoop.listenAndAccept`, `SocketLoop.tcpMain`: how it is started
-/

namespace Sponge

/-! ## The names of states -/

def TCPReceiverStateSummary.text : TCPReceiverStateSummary → String
  | .error => "error (connection was reset)"
  | .listen => "waiting for SYN: ackno is empty"
  | .synRecv => "SYN received (ackno exists), and input to stream hasn't ended"
  | .finRecv => "input to stream has ended"

def TCPSenderStateSummary.text : TCPSenderStateSummary → String
  | .error => "error (connection was reset)"
  | .closed => "waiting for stream to begin (no SYN sent)"
  | .synSent => "stream started but nothing acknowledged"
  | .synAcked => "stream ongoing"
  | .finSent => "stream finished (FIN sent) but not fully acknowledged"
  | .finAcked => "stream finished and fully acknowledged"

/-- `TCPState::name`; a flag is written as a number. -/
def TCPState.name (s : TCPState) : String :=
  "sender=`" ++ s.sender.text ++ "`, receiver=`" ++ s.receiver.text ++ "`, active=" ++
    toString s.active.toNat ++ ", linger_after_streams_finish=" ++
    toString s.lingerAfterStreamsFinish.toNat

/-! ## The socket -/

/-- `TCPSpongeSocket` of `tcp_sponge_socket.hh`, while its connection exists. -/
structure TCPSpongeSocket (δ : Type) where
  /-- the end of the local stream socket that the thread holds -/
  threadData : FileDescriptor := {}
  datagramAdapter : δ
  tcp : TCPConnection
  inboundShutdown : Bool := false
  outboundShutdown : Bool := false
  fullyAcked : Bool := false
  deriving DecidableEq, Repr

/-- The rules, in the order in which they are added. -/
inductive SocketRule where
  | receiveDatagram
  | readOutbound
  | writeInbound
  | sendSegments
  deriving DecidableEq, Repr

/-- The answers of the system to a callback: to the reads and writes of the adapter, to a read and a
write of the local stream socket, and to the call that shuts it down. -/
structure SocketAnswers (δ : Type) [FdAdapter δ] where
  incoming : FdAdapter.Incoming δ
  outgoing : ℕ → FdAdapter.Outgoing δ
  read : Except ℕ (List UInt8) := .ok []
  writev : ℕ → Except ℕ ℕ := fun _ => .ok 0
  shutdown : Except ℕ Unit := .ok ()
  /-- what reads of an empty queue yield -/
  stale : TCPSegment := {}

namespace TCPSpongeSocket

variable {δ : Type}

/-- `inbound_stream` of the connection. -/
def inbound (s : TCPSpongeSocket δ) : ByteStream := s.tcp.receiver.streamOut

/-- `remaining_outbound_capacity` of the connection. -/
def remainingOutboundCapacity (s : TCPSpongeSocket δ) : ℕ :=
  s.tcp.sender.stream.remainingCapacity

/-- `end_input_stream`, and the flag that says so. -/
def endOutbound (s : TCPSpongeSocket δ) : TCPSpongeSocket δ :=
  { s with tcp := s.tcp.endInputStream, outboundShutdown := true }

variable [FdAdapter δ]

/-- Rule 1: read from the filtered packet stream into the connection. -/
def receiveDatagram : Rule (TCPSpongeSocket δ) (SocketAnswers δ) where
  fd := fun s => FdAdapter.fd s.datagramAdapter
  direction := .pollIn
  callback := fun answers s => do
    let (seg, adapter) ← FdAdapter.read answers.incoming s.datagramAdapter
    let s := { s with datagramAdapter := adapter }
    let s := match seg with
      | some seg => { s with tcp := s.tcp.segmentReceived answers.stale seg }
      | none => s
    if s.threadData.eof && s.tcp.sender.bytesInFlight == 0 && !s.fullyAcked then
      return { s with fullyAcked := true }
    return s
  interest := fun s => s.tcp.active

/-- Rule 2: read from the pipe into the outbound buffer. -/
def readOutbound : Rule (TCPSpongeSocket δ) (SocketAnswers δ) where
  fd := threadData
  direction := .pollIn
  callback := fun answers s => do
    let (threadData, data) ← s.threadData.read s.remainingOutboundCapacity answers.read
    let s := { s with threadData := threadData }
    let (tcp, amountWritten) := s.tcp.write data
    let s := { s with tcp := tcp }
    if amountWritten ≠ data.length then
      throw (.std (.runtimeError "TCPConnection::write() accepted less than advertised length"))
    if s.threadData.eof then
      return s.endOutbound
    return s
  interest := fun s =>
    s.tcp.active && !s.outboundShutdown && decide (0 < s.remainingOutboundCapacity)
  cancel := endOutbound

/-- Rule 3: read from the inbound buffer into the pipe, as much as the pipe takes. -/
def writeInbound : Rule (TCPSpongeSocket δ) (SocketAnswers δ) where
  fd := threadData
  direction := .pollOut
  callback := fun answers s => do
    let amountToWrite := min 65536 s.inbound.bufferSize
    let buffer := s.inbound.peekOutput amountToWrite
    let (threadData, bytesWritten) ← s.threadData.write [buffer] false answers.writev
    let s := { s with
      threadData := threadData
      tcp := s.tcp.mapReceiver (TCPReceiver.mapStreamOut (ByteStream.popOutput · bytesWritten)) }
    if s.inbound.eof || s.inbound.error then
      let threadData ← s.threadData.shutdownWrite answers.shutdown
      return { s with threadData := threadData, inboundShutdown := true }
    return s
  interest := fun s =>
    !s.inbound.bufferEmpty || ((s.inbound.eof || s.inbound.error) && !s.inboundShutdown)

/-- The loop of rule 4: each segment is written to the adapter. -/
def sendAll : List TCPSegment → (ℕ → FdAdapter.Outgoing δ) → δ → Except SystemException δ
  | [], _, adapter => return adapter
  | seg :: segs, outgoing, adapter => do
    let adapter ← FdAdapter.write (outgoing 0) seg adapter
    sendAll segs (fun i => outgoing (i + 1)) adapter

/-- Rule 4: read outbound segments from the connection and send them as datagrams. -/
def sendSegments : Rule (TCPSpongeSocket δ) (SocketAnswers δ) where
  fd := fun s => FdAdapter.fd s.datagramAdapter
  direction := .pollOut
  callback := fun answers s => do
    let adapter ← sendAll s.tcp.segmentsOut answers.outgoing s.datagramAdapter
    return { s with datagramAdapter := adapter, tcp := { s.tcp with segmentsOut := [] } }
  interest := fun s => !s.tcp.segmentsOut.isEmpty

def rule : SocketRule → Rule (TCPSpongeSocket δ) (SocketAnswers δ)
  | .receiveDatagram => receiveDatagram
  | .readOutbound => readOutbound
  | .writeInbound => writeInbound
  | .sendSegments => sendSegments

/-- `_initialize_TCP`: the socket with a fresh connection. -/
def initializeTCP (config : TCPConfig) (randomIsn : WrappingInt32) (adapter : δ) :
    TCPSpongeSocket δ where
  datagramAdapter := adapter
  tcp := TCPConnection.new config randomIsn

end TCPSpongeSocket

/-- The socket, the rules of its event loop, and the time of its last tick. -/
structure SocketLoop (δ : Type) where
  socket : TCPSpongeSocket δ
  rules : List SocketRule :=
    [.receiveDatagram, .readOutbound, .writeInbound, .sendSegments]
  baseTime : ℕ
  deriving DecidableEq, Repr

/-- What the outside gives to a turn: the result of `poll` with the answers of the system, whether
the owner has asked the thread to stop, the time after it, and what a read of an empty queue
yields. -/
structure SocketTurn (δ : Type) [FdAdapter δ] where
  result : PollResult (SocketAnswers δ)
  abort : Bool := false
  now : ℕ
  stale : TCPSegment := {}

namespace SocketLoop

variable {δ : Type} [FdAdapter δ]

/-- The connection is told that time has passed, if it is active. -/
def tick (now : ℕ) (stale : TCPSegment) (l : SocketLoop δ) : SocketLoop δ :=
  if l.socket.tcp.active then
    { l with
      socket := { l.socket with tcp := l.socket.tcp.tick stale (now - l.baseTime) }
      baseTime := now }
  else l

/-- A turn of `_tcp_loop`; the first component says whether it was the last one. -/
def turn (t : SocketTurn δ) (l : SocketLoop δ) : Except SystemException (Bool × SocketLoop δ) := do
  let (ret, rules, socket) ←
    EventLoop.waitNextEvent TCPSpongeSocket.rule t.result l.rules l.socket
  let l := { l with rules := rules, socket := socket }
  if ret = .exit ∨ t.abort = true then
    return (true, l)
  return (false, l.tick t.now t.stale)

/-- `_tcp_loop`: turns as long as the condition holds; the first component says whether the loop has
ended. -/
def tcpLoop (condition : TCPSpongeSocket δ → Bool) :
    List (SocketTurn δ) → SocketLoop δ → Except SystemException (Bool × SocketLoop δ)
  | [], l => return (!condition l.socket, l)
  | t :: turns, l => do
    if !condition l.socket then
      return (true, l)
    let (done, l) ← turn t l
    if done then
      return (true, l)
    tcpLoop condition turns l

/-- The start of `connect`: the SYN is queued. -/
def opened (config : TCPConfig) (randomIsn : WrappingInt32) (adapterConfig : FdAdapter.Config δ)
    (adapter : δ) (now : ℕ) : SocketLoop δ :=
  let s := TCPSpongeSocket.initializeTCP config randomIsn
    (FdAdapter.setConfig adapterConfig adapter)
  { socket := { s with tcp := s.tcp.connect }, baseTime := now }

/-- The start of `listen_and_accept`: the adapter listens. -/
def listening (config : TCPConfig) (randomIsn : WrappingInt32) (adapterConfig : FdAdapter.Config δ)
    (adapter : δ) (now : ℕ) : SocketLoop δ :=
  { socket := TCPSpongeSocket.initializeTCP config randomIsn
      (FdAdapter.setListening true (FdAdapter.setConfig adapterConfig adapter))
    baseTime := now }

/-- What `connect` throws if the socket has a connection. -/
def connectInitialized : SystemException :=
  .std (.runtimeError "connect() with TCPConnection already initialized")

/-- What `listen_and_accept` throws if the socket has a connection. -/
def listenInitialized : SystemException :=
  .std (.runtimeError "listen_and_accept() with TCPConnection already initialized")

/-- `connect`, on a socket whose connection so far is `tcp`: the loop runs until the new connection
leaves `SYN_SENT`. -/
def connect (tcp : Option TCPConnection) (config : TCPConfig) (randomIsn : WrappingInt32)
    (adapterConfig : FdAdapter.Config δ) (adapter : δ) (now : ℕ) (turns : List (SocketTurn δ)) :
    Except SystemException (Bool × SocketLoop δ) := do
  if tcp.isSome then
    throw connectInitialized
  let l := opened config randomIsn adapterConfig adapter now
  let expectedState := TCPState.ofState .synSent
  if l.socket.tcp.state ≠ expectedState then
    throw (.std (.runtimeError ("After TCPConnection::connect(), state was " ++
      l.socket.tcp.state.name ++ " but expected " ++ expectedState.name)))
  tcpLoop (fun s => s.tcp.state = .ofState .synSent) turns l

/-- `listen_and_accept`, on a socket whose connection so far is `tcp`: the loop runs until the new
connection leaves `LISTEN`, `SYN_RCVD` and `SYN_SENT`. -/
def listenAndAccept (tcp : Option TCPConnection) (config : TCPConfig) (randomIsn : WrappingInt32)
    (adapterConfig : FdAdapter.Config δ) (adapter : δ) (now : ℕ) (turns : List (SocketTurn δ)) :
    Except SystemException (Bool × SocketLoop δ) := do
  if tcp.isSome then
    throw listenInitialized
  tcpLoop (fun s => s.tcp.state = .ofState .listen ∨ s.tcp.state = .ofState .synRcvd ∨
      s.tcp.state = .ofState .synSent) turns
    (listening config randomIsn adapterConfig adapter now)

/-- `_tcp_main`: the loop of the thread that `connect` and `listen_and_accept` start. -/
def tcpMain (now : ℕ) (turns : List (SocketTurn δ)) (l : SocketLoop δ) :
    Except SystemException (Bool × SocketLoop δ) :=
  tcpLoop (fun _ => true) turns { l with baseTime := now }

end SocketLoop

end Sponge
