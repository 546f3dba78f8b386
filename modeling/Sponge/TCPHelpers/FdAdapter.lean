import Mathlib.Tactic
import Sponge.TCPHelpers.TCPOverIP
import Sponge.Util.FileDescriptor

/-!
# Adapters

An adapter reads and writes segments on top of a file descriptor. `TCPOverUDPSocketAdapter` puts
each segment into the payload of a UDP datagram, `TCPOverIPv4OverTunFdAdapter` into an IPv4 datagram
that it writes to a TUN device. `LossyFdAdapter` adds losses to either of them, which it draws at
random on the way in and on the way out.

The file descriptors are driven by the answers of the system, as everywhere; the random numbers are
answers too. Each adapter records what it has put on the wire.

## Main definitions

* `FdAdapter`: what a socket asks of its adapter
* `TCPOverUDPSocketAdapter`, `TCPOverIPv4OverTunFdAdapter`, `LossyFdAdapter`: the adapters
-/

namespace Sponge

open Fallible (bind_eq_ok_iff bind_eq_error_iff ite_throw_eq_ok_iff ite_throw_eq_error_iff)

/-- **What a socket asks of its adapter**, the parameter `AdaptT` of `TCPSpongeSocket`: a file
descriptor to poll, and segments to read and to write. -/
class FdAdapter (δ : Type) where
  /-- the type of `config_mut()` -/
  Config : Type
  /-- the answers of the system to a read -/
  Incoming : Type
  /-- the answers of the system to a write -/
  Outgoing : Type
  fd : δ → FileDescriptor
  read : Incoming → δ → Except SystemException (Option TCPSegment × δ)
  write : Outgoing → TCPSegment → δ → Except SystemException δ
  setConfig : Config → δ → δ
  setListening : Bool → δ → δ

namespace FdAdapter

variable {δ : Type} [FdAdapter δ]

/-- A call of an adapter, with the answers of the system. -/
inductive Op (δ : Type) [FdAdapter δ] where
  | read (answer : Incoming δ)
  | write (answer : Outgoing δ) (seg : TCPSegment)

/-- Calls in a row; the first component is what the reads were answered and what they returned. -/
def run : List (Op δ) → δ → Except SystemException (List (Incoming δ × Option TCPSegment) × δ)
  | [], a => return ([], a)
  | .read answer :: ops, a => do
    let (seg, a) ← read answer a
    let (transcript, a) ← run ops a
    return ((answer, seg) :: transcript, a)
  | .write answer seg :: ops, a => do
    let a ← write answer seg a
    run ops a

end FdAdapter

/-! ## UDP -/

/-- `received_datagram` of `UDPSocket`. -/
structure ReceivedDatagram where
  sourceAddress : Address
  payload : List UInt8
  deriving DecidableEq, Repr

namespace UDPSocket

/-- The default of the maximal size of a received datagram. -/
def mtu : ℕ := 65536

/-- Receive a datagram, which must not be larger than `mtu`. -/
def recv (sock : FileDescriptor) (answer : Except ℕ ReceivedDatagram) :
    Except SystemException (FileDescriptor × ReceivedDatagram) := do
  let datagram ← systemCall "recvfrom" answer
  if mtu < datagram.payload.length then
    throw (.std (.runtimeError "recvfrom (oversized datagram)"))
  return (sock.registerRead, datagram)

/-- Send a datagram, all of it; the answer is the number of bytes sent. -/
def sendto (sock : FileDescriptor) (payload : BufferViewList) (answer : Except ℕ ℕ) :
    Except SystemException FileDescriptor := do
  let bytesSent ← systemCall "sendmsg" answer
  if bytesSent ≠ payload.size then
    throw (.std (.runtimeError "datagram payload too big for sendmsg()"))
  return sock.registerWrite

end UDPSocket

/-- `TCPOverUDPSocketAdapter` of `fd_adapter.hh`. -/
structure TCPOverUDPSocketAdapter where
  config : FdAdapterConfig := {}
  listening : Bool := false
  sock : FileDescriptor := {}
  /-- the datagrams that were sent: to whom, and the payload -/
  sent : List (Address × List UInt8) := []
  deriving DecidableEq, Repr

namespace TCPOverUDPSocketAdapter

/-- Read a segment of the connection from the next datagram. -/
def read (answer : Except ℕ ReceivedDatagram) (adapter : TCPOverUDPSocketAdapter) :
    Except SystemException (Option TCPSegment × TCPOverUDPSocketAdapter) := do
  let (sock, datagram) ← UDPSocket.recv adapter.sock answer
  let adapter := { adapter with sock := sock }
  -- is it for us?
  if !adapter.listening && datagram.sourceAddress ≠ adapter.config.destination then
    return (none, adapter)
  -- is the payload a valid TCP segment?
  let (result, seg) ← rethrow (({} : TCPSegment).parse datagram.payload 0)
  if result ≠ .noError then
    return (none, adapter)
  -- should we target this source in all future replies?
  if adapter.listening then
    if seg.header.syn && !seg.header.rst then
      return (some seg, { adapter with
        config := { adapter.config with destination := datagram.sourceAddress }
        listening := false })
    else
      return (none, adapter)
  return (some seg, adapter)

/-- The segment with the ports of the connection. -/
def addressed (adapter : TCPOverUDPSocketAdapter) (seg : TCPSegment) : TCPSegment :=
  { seg with header :=
    { seg.header with
      sport := adapter.config.source.port
      dport := adapter.config.destination.port } }

/-- Send a segment as the payload of a datagram. -/
def write (answer : Except ℕ ℕ) (seg : TCPSegment) (adapter : TCPOverUDPSocketAdapter) :
    Except SystemException TCPOverUDPSocketAdapter := do
  let payload ← rethrow ((adapter.addressed seg).serialize 0)
  let sock ← UDPSocket.sendto adapter.sock payload answer
  return { adapter with
    sock := sock
    sent := adapter.sent ++ [(adapter.config.destination, payload.concatenate)] }

instance : FdAdapter TCPOverUDPSocketAdapter where
  Config := FdAdapterConfig
  Incoming := Except ℕ ReceivedDatagram
  Outgoing := Except ℕ ℕ
  fd := sock
  read := read
  write := write
  setConfig := fun config adapter => { adapter with config := config }
  setListening := fun listening adapter => { adapter with listening := listening }

instance : DecidableEq (FdAdapter.Incoming TCPOverUDPSocketAdapter) :=
  inferInstanceAs (DecidableEq (Except ℕ ReceivedDatagram))

end TCPOverUDPSocketAdapter

namespace UDPSocket

theorem recv_eq_ok_iff {sock sock' : FileDescriptor} {answer : Except ℕ ReceivedDatagram}
    {datagram : ReceivedDatagram} :
    recv sock answer = .ok (sock', datagram) ↔
      answer = .ok datagram ∧ datagram.payload.length ≤ mtu ∧ sock' = sock.registerRead := by
  simp only [recv, bind_eq_ok_iff, ite_throw_eq_ok_iff, systemCall_eq_ok_iff, pure_eq_ok]
  constructor
  · rintro ⟨datagram', hanswer, hle, heq⟩
    cases heq
    exact ⟨hanswer, Nat.le_of_not_lt hle, rfl⟩
  · rintro ⟨hanswer, hle, rfl⟩
    exact ⟨datagram, hanswer, Nat.not_lt_of_le hle, rfl⟩

theorem sendto_eq_ok_iff {sock sock' : FileDescriptor} {payload : BufferViewList}
    {answer : Except ℕ ℕ} :
    sendto sock payload answer = .ok sock' ↔
      answer = .ok payload.size ∧ sock' = sock.registerWrite := by
  simp only [sendto, bind_eq_ok_iff, ite_throw_eq_ok_iff, systemCall_eq_ok_iff, pure_eq_ok]
  constructor
  · rintro ⟨n, hanswer, hall, heq⟩
    cases heq
    rw [hanswer, not_not.mp hall]
    exact ⟨rfl, rfl⟩
  · rintro ⟨hanswer, rfl⟩
    exact ⟨payload.size, hanswer, not_not.mpr rfl, rfl⟩

end UDPSocket

namespace TCPOverUDPSocketAdapter

variable {a a' : TCPOverUDPSocketAdapter} {answer : Except ℕ ReceivedDatagram}

/-- The adapter after a read that does not change it otherwise. -/
def received (a : TCPOverUDPSocketAdapter) : TCPOverUDPSocketAdapter :=
  { a with sock := a.sock.registerRead }

/-- The adapter after the SYN for which it has listened. -/
def accepted (a : TCPOverUDPSocketAdapter) (source : Address) : TCPOverUDPSocketAdapter :=
  { a.received with config := { a.config with destination := source }, listening := false }

/-- The datagram carries a segment. -/
def Holds (datagram : ReceivedDatagram) (seg : TCPSegment) : Prop :=
  ({} : TCPSegment).parse datagram.payload 0 = .ok (.noError, seg)

/-- The segment opens a connection. -/
def Opening (seg : TCPSegment) : Prop :=
  seg.header.syn = true ∧ seg.header.rst = false

/-- **What a read does.** An adapter that does not listen returns the segments from its peer; one
that listens returns the first segment that opens a connection, and takes its source for the
peer. -/
theorem read_eq_ok {r : Option TCPSegment} (h : a.read answer = .ok (r, a')) :
    ∃ datagram, answer = .ok datagram ∧
      if a.listening then
        (r = none ∧ (∀ seg, Holds datagram seg → ¬ Opening seg) ∧ a' = a.received) ∨
          ∃ seg, r = some seg ∧ Holds datagram seg ∧ Opening seg ∧
            a' = a.accepted datagram.sourceAddress
      else
        (∀ seg, r = some seg ↔
          datagram.sourceAddress = a.config.destination ∧ Holds datagram seg) ∧
          a' = a.received := by
  obtain ⟨⟨sock, datagram⟩, hrecv, hrest⟩ := bind_eq_ok_iff.mp h
  obtain ⟨hanswer, -, rfl⟩ := UDPSocket.recv_eq_ok_iff.mp hrecv
  refine ⟨datagram, hanswer, ?_⟩
  obtain ⟨result, seg, hparse⟩ := TCPSegment.exists_parse {} datagram.payload 0
  have hholds : ∀ seg', Holds datagram seg' ↔ result = .noError ∧ seg' = seg := by
    intro seg'
    unfold Holds
    rw [hparse]
    constructor
    · intro heq
      cases heq
      exact ⟨rfl, rfl⟩
    · rintro ⟨rfl, rfl⟩
      rfl
  dsimp only at hrest
  rw [hparse, rethrow_ok, ok_bind] at hrest
  dsimp only at hrest
  cases hlisten : a.listening with
  | true =>
    simp only [hlisten, Bool.not_true, Bool.false_and, Bool.false_eq_true, if_false, if_true]
      at hrest ⊢
    split_ifs at hrest with herror hsyn
    · cases hrest
      refine Or.inl ⟨rfl, fun seg' hseg' => ?_, by rw [received, hlisten]⟩
      exact absurd ((hholds seg').mp hseg').1 herror
    · cases hrest
      rw [Bool.and_eq_true, Bool.not_eq_true'] at hsyn
      exact Or.inr ⟨seg, rfl, (hholds seg).mpr ⟨not_not.mp herror, rfl⟩, hsyn, rfl⟩
    · cases hrest
      refine Or.inl ⟨rfl, fun seg' hseg' hopening => hsyn ?_, by rw [received, hlisten]⟩
      obtain rfl := ((hholds seg').mp hseg').2
      rw [Bool.and_eq_true, Bool.not_eq_true']
      exact hopening
  | false =>
    simp only [hlisten, Bool.not_false, Bool.true_and, decide_eq_true_eq, Bool.false_eq_true,
      if_false] at hrest ⊢
    split_ifs at hrest with hsource herror
    · cases hrest
      exact ⟨fun seg' => by simp [hsource], by rw [received, hlisten]⟩
    · cases hrest
      exact ⟨fun seg' => by simp [hholds, herror], by rw [received, hlisten]⟩
    · cases hrest
      refine ⟨fun seg' => ?_, by rw [received, hlisten]⟩
      rw [hholds, Option.some.injEq]
      exact ⟨fun heq => ⟨not_not.mp hsource, not_not.mp herror, heq.symm⟩, fun h => h.2.2.symm⟩

theorem write_eq_ok {answer : Except ℕ ℕ} {seg : TCPSegment} (h : a.write answer seg = .ok a') :
    ∃ payload, (a.addressed seg).serialize 0 = .ok payload ∧ answer = .ok payload.size ∧
      a' = { a with
        sock := a.sock.registerWrite
        sent := a.sent ++ [(a.config.destination, payload.concatenate)] } := by
  obtain ⟨payload, hserialize, hrest⟩ := bind_eq_ok_iff.mp h
  obtain ⟨sock, hsend, heq⟩ := bind_eq_ok_iff.mp hrest
  obtain ⟨hanswer, rfl⟩ := UDPSocket.sendto_eq_ok_iff.mp hsend
  cases heq
  exact ⟨payload, rethrow_eq_ok_iff.mp hserialize, hanswer, rfl⟩

/-- What an adapter with a peer was answered and returned: the segments from the peer. -/
def Filters (peer : Address) (answer : Except ℕ ReceivedDatagram) (r : Option TCPSegment) : Prop :=
  ∃ datagram, answer = .ok datagram ∧
    ∀ seg, r = some seg ↔ datagram.sourceAddress = peer ∧ Holds datagram seg

/-- What an adapter that listens was answered and returned before it has a peer: a datagram that
opens no connection, and nothing. -/
def Awaits (answer : Except ℕ ReceivedDatagram) (r : Option TCPSegment) : Prop :=
  r = none ∧ ∃ datagram, answer = .ok datagram ∧ ∀ seg, Holds datagram seg → ¬ Opening seg

variable {ops : List (FdAdapter.Op TCPOverUDPSocketAdapter)}
  {transcript : List (Except ℕ ReceivedDatagram × Option TCPSegment)}

/-- **Calls of an adapter that does not listen**: it keeps its peer. -/
theorem run_connected (hlisten : a.listening = false)
    (hrun : FdAdapter.run ops a = .ok (transcript, a')) :
    a'.listening = false ∧ a'.config = a.config ∧
      (∀ entry ∈ transcript, Filters a.config.destination entry.1 entry.2) ∧
      ∃ new, a'.sent = a.sent ++ new ∧ ∀ d ∈ new, d.1 = a.config.destination := by
  induction ops generalizing a transcript with
  | nil =>
    cases hrun
    exact ⟨hlisten, rfl, by simp, [], by simp, by simp⟩
  | cons op ops ih =>
    cases op with
    | read answer =>
      obtain ⟨⟨r, a₁⟩, hread, hrest⟩ := bind_eq_ok_iff.mp hrun
      obtain ⟨⟨rest, a₂⟩, hrun₁, heq⟩ := bind_eq_ok_iff.mp hrest
      cases heq
      obtain ⟨datagram, hanswer, hstep⟩ := read_eq_ok hread
      rw [hlisten, if_neg Bool.false_ne_true] at hstep
      obtain ⟨hfilter, rfl⟩ := hstep
      obtain ⟨hlisten', hconfig, hentries, hsent⟩ := ih (a := a.received) hlisten hrun₁
      refine ⟨hlisten', hconfig, ?_, hsent⟩
      exact List.forall_mem_cons.mpr ⟨⟨datagram, hanswer, hfilter⟩, hentries⟩
    | write answer seg =>
      obtain ⟨a₁, hwrite, hrun₁⟩ := bind_eq_ok_iff.mp hrun
      obtain ⟨payload, -, -, ha⟩ := write_eq_ok hwrite
      have hsame : a₁.listening = a.listening ∧ a₁.config = a.config := by rw [ha]; exact ⟨rfl, rfl⟩
      obtain ⟨hlisten', hconfig, hentries, new, hsent, hnew⟩ := ih (hsame.1.trans hlisten) hrun₁
      rw [hsame.2] at hconfig hentries hnew
      refine ⟨hlisten', hconfig, hentries, (a.config.destination, payload.concatenate) :: new, ?_,
        List.forall_mem_cons.mpr ⟨rfl, hnew⟩⟩
      rw [hsent, ha, List.append_assoc]
      rfl

end TCPOverUDPSocketAdapter

open TCPOverUDPSocketAdapter (Holds Opening Filters Awaits) in
/-- **The adapter over UDP has one peer.** Whatever datagrams arrive, and whatever is written in
between: an adapter that does not listen returns the segments that come from its destination, and
sends to no one else. An adapter that listens returns nothing as long as no segment with SYN and
without RST arrives. It returns the first such segment, takes its source for the destination, and
from then on returns the segments that come from there, and sends to no one else. -/
theorem udp_adapter_single_peer (a : TCPOverUDPSocketAdapter)
    (ops : List (FdAdapter.Op TCPOverUDPSocketAdapter))
    (transcript : List (Except ℕ ReceivedDatagram × Option TCPSegment))
    (a' : TCPOverUDPSocketAdapter) (hrun : FdAdapter.run ops a = .ok (transcript, a')) :
    (a.listening = false →
      a'.listening = false ∧ a'.config = a.config ∧
      (∀ entry ∈ transcript, Filters a.config.destination entry.1 entry.2) ∧
      ∃ new, a'.sent = a.sent ++ new ∧ ∀ d ∈ new, d.1 = a.config.destination) ∧
    (a.listening = true →
      (a'.listening = true ∧ a'.config = a.config ∧
        ∀ entry ∈ transcript, Awaits entry.1 entry.2) ∨
      ∃ before datagram seg after,
        transcript = before ++ (.ok datagram, some seg) :: after ∧
        (∀ entry ∈ before, Awaits entry.1 entry.2) ∧ Holds datagram seg ∧ Opening seg ∧
        a'.listening = false ∧
        a'.config = { a.config with destination := datagram.sourceAddress } ∧
        (∀ entry ∈ after, Filters datagram.sourceAddress entry.1 entry.2) ∧
        ∃ old new, a'.sent = a.sent ++ old ++ new ∧ (∀ d ∈ old, d.1 = a.config.destination) ∧
          ∀ d ∈ new, d.1 = datagram.sourceAddress) := by
  refine ⟨fun hlisten => TCPOverUDPSocketAdapter.run_connected hlisten hrun, fun hlisten => ?_⟩
  -- induction on the calls, up to the one that ends listening
  induction ops generalizing a transcript with
  | nil =>
    cases hrun
    exact Or.inl ⟨hlisten, rfl, by simp⟩
  | cons op ops ih =>
    cases op with
    | read answer =>
      obtain ⟨⟨r, a₁⟩, hread, hrest⟩ := bind_eq_ok_iff.mp hrun
      obtain ⟨⟨rest, a₂⟩, hrun₁, heq⟩ := bind_eq_ok_iff.mp hrest
      cases heq
      obtain ⟨datagram, hanswer, hstep⟩ := TCPOverUDPSocketAdapter.read_eq_ok hread
      rw [hlisten, if_pos rfl] at hstep
      rcases hstep with ⟨rfl, hother, rfl⟩ | ⟨seg, rfl, hholds, hopening, rfl⟩
      · have hawaits : Awaits answer none := ⟨rfl, datagram, hanswer, hother⟩
        rcases ih _ _ hrun₁ hlisten with ⟨hlisten', hconfig, hall⟩ |
          ⟨before, datagram', seg, after, rfl, hbefore, hpeer⟩
        · exact Or.inl ⟨hlisten', hconfig, List.forall_mem_cons.mpr ⟨hawaits, hall⟩⟩
        · exact Or.inr ⟨_ :: before, datagram', seg, after, rfl,
            List.forall_mem_cons.mpr ⟨hawaits, hbefore⟩, hpeer⟩
      · obtain ⟨hlisten', hconfig, hentries, new, hsent, hnew⟩ :=
          TCPOverUDPSocketAdapter.run_connected rfl hrun₁
        rw [hanswer]
        exact Or.inr ⟨[], datagram, seg, rest, rfl, by simp, hholds, hopening, hlisten', hconfig,
          hentries, [], new, by rw [List.append_nil]; exact hsent, by simp, hnew⟩
    | write answer seg =>
      obtain ⟨a₁, hwrite, hrun₁⟩ := bind_eq_ok_iff.mp hrun
      obtain ⟨payload, -, -, rfl⟩ := TCPOverUDPSocketAdapter.write_eq_ok hwrite
      rcases ih _ _ hrun₁ hlisten with hwaits |
        ⟨before, datagram, seg', after, htranscript, hbefore, hholds, hopening, hlisten', hconfig,
          hentries, old, new, hsent, hold, hnew⟩
      · exact Or.inl hwaits
      · -- what is written before there is a peer goes to the old destination
        refine Or.inr ⟨before, datagram, seg', after, htranscript, hbefore, hholds, hopening,
          hlisten', hconfig, hentries, (a.config.destination, payload.concatenate) :: old, new, ?_,
          List.forall_mem_cons.mpr ⟨rfl, hold⟩, hnew⟩
        rw [hsent, List.append_assoc a.sent]
        rfl

/-- A listening adapter drops a segment without SYN, accepts a SYN, and drops a stranger. -/
theorem udp_adapter_single_peer_syn :
    let bytes : UInt8 → UInt8 → List UInt8 := fun flags cksum =>
      List.replicate 12 0 ++ [0x50, flags, 0, 0, 0xaf, cksum, 0, 0]
    let seg : TCPSegment := { header := { syn := true, cksum := 0xaffd } }
    let a : TCPOverUDPSocketAdapter := { config := ⟨⟨1, 10⟩, ⟨0, 0⟩⟩, listening := true }
    let transcript : List (Except ℕ ReceivedDatagram × Option TCPSegment) :=
      [(.ok ⟨⟨3, 30⟩, bytes 0x10 0xef⟩, none), (.ok ⟨⟨2, 20⟩, bytes 0x02 0xfd⟩, some seg),
        (.ok ⟨⟨3, 30⟩, bytes 0x10 0xef⟩, none)]
    let a' : TCPOverUDPSocketAdapter :=
      { config := ⟨⟨1, 10⟩, ⟨2, 20⟩⟩, sock := { readCount := 3 } }
    FdAdapter.run (transcript.map fun entry => .read entry.1) a = .ok (transcript, a') ∧
      ∃ before datagram seg after,
        transcript = before ++ (.ok datagram, some seg) :: after ∧
        (∀ entry ∈ before, TCPOverUDPSocketAdapter.Awaits entry.1 entry.2) ∧
        TCPOverUDPSocketAdapter.Holds datagram seg ∧ TCPOverUDPSocketAdapter.Opening seg ∧
        a'.listening = false ∧
        a'.config = { a.config with destination := datagram.sourceAddress } ∧
        ∀ entry ∈ after,
          TCPOverUDPSocketAdapter.Filters datagram.sourceAddress entry.1 entry.2 := by
  intro bytes seg a transcript a'
  have hrun : FdAdapter.run (transcript.map fun entry => .read entry.1) a =
      .ok (transcript, a') := by
    decide +kernel
  refine ⟨hrun, ?_⟩
  rcases (udp_adapter_single_peer a _ transcript a' hrun).2 rfl with ⟨hlisten, -⟩ |
    ⟨before, datagram, seg, after, heq, hbefore, hholds, hopening, hlisten, hconfig, hafter, -⟩
  · cases hlisten
  · exact ⟨before, datagram, seg, after, heq, hbefore, hholds, hopening, hlisten, hconfig, hafter⟩

/-! ## IPv4 over a TUN device -/

/-- `TCPOverIPv4OverTunFdAdapter` of `tuntap_adapter.hh`. -/
structure TCPOverIPv4OverTunFdAdapter where
  adapter : TCPOverIPv4Adapter := {}
  tun : FileDescriptor := {}
  /-- the datagrams that were written -/
  sent : List (List UInt8) := []
  deriving DecidableEq, Repr

namespace TCPOverIPv4OverTunFdAdapter

/-- The limit of a read without a limit: the largest `size_t`. -/
def noLimit : ℕ := 2 ^ 64 - 1

/-- Read a segment of the connection from the next IPv4 datagram. -/
def read (answer : Except ℕ (List UInt8)) (a : TCPOverIPv4OverTunFdAdapter) :
    Except SystemException (Option TCPSegment × TCPOverIPv4OverTunFdAdapter) := do
  let (tun, bytes) ← a.tun.read noLimit answer
  let a := { a with tun := tun }
  let (result, ipDgram) ← rethrow (({} : IPv4Datagram).parse bytes)
  if result ≠ .noError then
    return (none, a)
  let (seg, adapter) ← rethrow (a.adapter.unwrapTcpInIp ipDgram)
  return (seg, { a with adapter := adapter })

/-- Write a segment as an IPv4 datagram. -/
def write (kernel : ℕ → Except ℕ ℕ) (seg : TCPSegment) (a : TCPOverIPv4OverTunFdAdapter) :
    Except SystemException TCPOverIPv4OverTunFdAdapter := do
  let (ipDgram, _) ← rethrow (a.adapter.wrapTcpInIp seg)
  let buffers ← rethrow ipDgram.serialize
  let (tun, _) ← a.tun.write buffers true kernel
  return { a with tun := tun, sent := a.sent ++ [buffers.concatenate] }

instance : FdAdapter TCPOverIPv4OverTunFdAdapter where
  Config := FdAdapterConfig
  Incoming := Except ℕ (List UInt8)
  Outgoing := ℕ → Except ℕ ℕ
  fd := tun
  read := read
  write := write
  setConfig := fun config a => { a with adapter := { a.adapter with config := config } }
  setListening := fun listening a =>
    { a with adapter := { a.adapter with listening := listening } }

end TCPOverIPv4OverTunFdAdapter

/-! ## Losses -/

/-- `LossyFdAdapter` of `lossy_fd_adapter.hh`, with the loss rates of the configuration. -/
structure LossyFdAdapter (δ : Type) where
  adapter : δ
  lossRateDn : UInt16 := 0
  lossRateUp : UInt16 := 0
  deriving DecidableEq, Repr

namespace LossyFdAdapter

variable {δ : Type} [FdAdapter δ]

/-- Whether to drop a segment, given the next random number. -/
def shouldDrop (a : LossyFdAdapter δ) (uplink : Bool) (rand : UInt32) : Bool :=
  let loss := if uplink then a.lossRateUp else a.lossRateDn
  loss != 0 && decide (rand.toUInt16 < loss)

/-- Read from the adapter, and perhaps drop what was read. -/
def read (answer : FdAdapter.Incoming δ × UInt32) (a : LossyFdAdapter δ) :
    Except SystemException (Option TCPSegment × LossyFdAdapter δ) := do
  let (ret, adapter) ← FdAdapter.read answer.1 a.adapter
  let a := { a with adapter := adapter }
  if a.shouldDrop false answer.2 then
    return (none, a)
  return (ret, a)

/-- Write to the adapter, unless the segment is dropped. -/
def write (answer : FdAdapter.Outgoing δ × UInt32) (seg : TCPSegment) (a : LossyFdAdapter δ) :
    Except SystemException (LossyFdAdapter δ) := do
  if a.shouldDrop true answer.2 then
    return a
  let adapter ← FdAdapter.write answer.1 seg a.adapter
  return { a with adapter := adapter }

instance : FdAdapter (LossyFdAdapter δ) where
  Config := FdAdapter.Config δ × UInt16 × UInt16
  Incoming := FdAdapter.Incoming δ × UInt32
  Outgoing := FdAdapter.Outgoing δ × UInt32
  fd := fun a => FdAdapter.fd a.adapter
  read := read
  write := write
  setConfig := fun config a =>
    { adapter := FdAdapter.setConfig config.1 a.adapter
      lossRateDn := config.2.1
      lossRateUp := config.2.2 }
  setListening := fun listening a =>
    { a with adapter := FdAdapter.setListening listening a.adapter }

instance [DecidableEq (FdAdapter.Incoming δ)] :
    DecidableEq (FdAdapter.Incoming (LossyFdAdapter δ)) :=
  inferInstanceAs (DecidableEq (FdAdapter.Incoming δ × UInt32))

end LossyFdAdapter

namespace LossyFdAdapter

variable {δ : Type}

/-- The call without the random number. -/
def plain [FdAdapter δ] : FdAdapter.Op (LossyFdAdapter δ) → FdAdapter.Op δ
  | .read answer => .read answer.1
  | .write answer seg => .write answer.1 seg

theorem shouldDrop_of_rate_zero (a : LossyFdAdapter δ) (uplink : Bool) (rand : UInt32)
    (h : (if uplink then a.lossRateUp else a.lossRateDn) = 0) :
    a.shouldDrop uplink rand = false := by
  simp [shouldDrop, h]

end LossyFdAdapter

/-- **A lossy adapter only loses.** Whatever the random numbers, a run of a lossy adapter is a run
of the adapter under it with some of the writes left out, in which every read takes place; of what
the reads return some may be missing, and nothing else is returned. With a loss rate of zero nothing
is lost in that direction. -/
theorem lossy_adapter_only_loses {δ : Type} [FdAdapter δ] (a : LossyFdAdapter δ)
    (ops : List (FdAdapter.Op (LossyFdAdapter δ)))
    (transcript : List ((FdAdapter.Incoming δ × UInt32) × Option TCPSegment))
    (a' : LossyFdAdapter δ) (hrun : FdAdapter.run ops a = .ok (transcript, a')) :
    ∃ kept plain, kept.Sublist (ops.map LossyFdAdapter.plain) ∧
      FdAdapter.run kept a.adapter = .ok (plain, a'.adapter) ∧
      plain.map Prod.fst = transcript.map (fun entry => entry.1.1) ∧
      List.Forall₂ (fun r r₀ => r = none ∨ r = r₀) (transcript.map Prod.snd)
        (plain.map Prod.snd) ∧
      (a.lossRateUp = 0 → kept = ops.map LossyFdAdapter.plain) ∧
      (a.lossRateDn = 0 → plain.map Prod.snd = transcript.map Prod.snd) ∧
      a'.lossRateUp = a.lossRateUp ∧ a'.lossRateDn = a.lossRateDn := by
  induction ops generalizing a transcript with
  | nil =>
    cases hrun
    exact ⟨[], [], List.Sublist.slnil, rfl, rfl, List.Forall₂.nil, fun _ => rfl, fun _ => rfl, rfl,
      rfl⟩
  | cons op ops ih =>
    cases op with
    | read answer =>
      obtain ⟨⟨r, a₁⟩, hread, hrest⟩ := bind_eq_ok_iff.mp hrun
      obtain ⟨⟨rest, a₂⟩, hrun₁, heq⟩ := bind_eq_ok_iff.mp hrest
      cases heq
      obtain ⟨⟨ret, adapter⟩, hinner, hdrop⟩ := bind_eq_ok_iff.mp hread
      -- the read takes place, whether or not its result is dropped
      have hstep : a₁ = { a with adapter := adapter } ∧ (r = none ∨ r = ret) ∧
          (a.lossRateDn = 0 → ret = r) := by
        dsimp only at hdrop
        split_ifs at hdrop with hdropped
        · cases hdrop
          refine ⟨rfl, Or.inl rfl, fun hrate => ?_⟩
          have hkeep := a.shouldDrop_of_rate_zero false answer.2 hrate
          change a.shouldDrop false answer.2 = true at hdropped
          rw [hkeep] at hdropped
          cases hdropped
        · cases hdrop
          exact ⟨rfl, Or.inr rfl, fun _ => rfl⟩
      obtain ⟨rfl, hr, hzero⟩ := hstep
      obtain ⟨kept, plain, hkept, hplain, hfst, hsnd, hup, hdn, hrates⟩ := ih _ _ hrun₁
      refine ⟨.read answer.1 :: kept, (answer.1, ret) :: plain, hkept.cons_cons _, ?_, ?_, ?_, ?_,
        ?_, hrates⟩
      · exact bind_eq_ok_iff.mpr ⟨_, hinner, bind_eq_ok_iff.mpr ⟨_, hplain, rfl⟩⟩
      · rw [List.map_cons, List.map_cons, hfst]
      · exact List.Forall₂.cons hr hsnd
      · exact fun hrate => congrArg _ (hup hrate)
      · intro hrate
        rw [List.map_cons, List.map_cons, hdn hrate, hzero hrate]
    | write answer seg =>
      obtain ⟨a₁, hwrite, hrun₁⟩ := bind_eq_ok_iff.mp hrun
      change a.write answer seg = .ok a₁ at hwrite
      unfold LossyFdAdapter.write at hwrite
      split_ifs at hwrite with hdropped
      · cases hwrite
        obtain ⟨kept, plain, hkept, hplain, hfst, hsnd, hup, hdn, hrates⟩ := ih _ _ hrun₁
        refine ⟨kept, plain, hkept.cons _, hplain, hfst, hsnd, fun hrate => ?_, hdn, hrates⟩
        rw [a.shouldDrop_of_rate_zero true answer.2 hrate] at hdropped
        cases hdropped
      · obtain ⟨adapter, hinner, heq⟩ := bind_eq_ok_iff.mp hwrite
        cases heq
        obtain ⟨kept, plain, hkept, hplain, hfst, hsnd, hup, hdn, hrates⟩ := ih _ _ hrun₁
        exact ⟨.write answer.1 seg :: kept, plain, hkept.cons_cons _,
          bind_eq_ok_iff.mpr ⟨_, hinner, hplain⟩, hfst, hsnd, fun hrate => congrArg _ (hup hrate),
          hdn, hrates⟩

/-- With the highest loss rate on the way in, a SYN is lost, but not on the adapter under it. -/
theorem lossy_adapter_only_loses_syn :
    let datagram : ReceivedDatagram :=
      ⟨⟨2, 20⟩, List.replicate 12 0 ++ [0x50, 0x02, 0, 0, 0xaf, 0xfd, 0, 0]⟩
    let a : LossyFdAdapter TCPOverUDPSocketAdapter :=
      { adapter := { listening := true }, lossRateDn := 65535 }
    let adapter : TCPOverUDPSocketAdapter :=
      { config := ⟨⟨0, 0⟩, ⟨2, 20⟩⟩, sock := { readCount := 1 } }
    FdAdapter.run [.read (.ok datagram, 7)] a =
        .ok ([((.ok datagram, 7), none)], { a with adapter := adapter }) ∧
      ∃ kept plain, kept.Sublist [.read (.ok datagram)] ∧
        FdAdapter.run kept a.adapter = .ok (plain, adapter) := by
  intro datagram a adapter
  have hrun : FdAdapter.run [.read (.ok datagram, 7)] a =
      .ok ([((.ok datagram, 7), none)], { a with adapter := adapter }) := by
    decide +kernel
  obtain ⟨kept, plain, hkept, hplain, -⟩ := lossy_adapter_only_loses a _ _ _ hrun
  exact ⟨hrun, kept, plain, hkept, hplain⟩

end Sponge
