import Mathlib.Tactic
import Sponge.TCPHelpers.IPv4Datagram
import Sponge.TCPHelpers.TCPSegment

/-!
# TCP over IPv4

`TCPOverIPv4Adapter` carries segments in datagrams. On the way out it sets the ports and addresses
of its configuration; on the way in it drops what is not a segment of its connection. A listening
adapter takes the addresses and ports of its connection from the first SYN.

## Main definitions

* `Address`, `FdAdapterConfig`, `TCPOverIPv4Adapter`
* `TCPOverIPv4Adapter.wrapTcpInIp`, `unwrapTcpInIp`
* `TCPOverIPv4Adapter.Mirrors`: two adapters at the two ends of one connection

## Main results

* `TCPOverIPv4Adapter.unwrapTcpInIp_of_mirrors`: an adapter accepts what its peer sends
-/

namespace Sponge

/-- An address and a port, as the numbers that `ipv4_numeric` and `port` return. -/
structure Address where
  ipv4Numeric : UInt32 := 0
  port : UInt16 := 0
  deriving DecidableEq, Repr

/-- The addresses of an adapter: `FdAdapterConfig` of `tcp_config.hh`. -/
structure FdAdapterConfig where
  source : Address := {}
  destination : Address := {}
  deriving DecidableEq, Repr

/-- The adapter: its configuration, and whether it listens for a new connection. -/
structure TCPOverIPv4Adapter where
  config : FdAdapterConfig := {}
  listening : Bool := false
  deriving DecidableEq, Repr

namespace TCPOverIPv4Adapter

/-- The segment in a datagram, if it is one of the connection. -/
def unwrapTcpInIp (adapter : TCPOverIPv4Adapter) (ipDgram : IPv4Datagram) :
    Except StdException (Option TCPSegment × TCPOverIPv4Adapter) := do
  -- is the datagram for us?
  if !adapter.listening && ipDgram.header.dst != adapter.config.source.ipv4Numeric then
    return (none, adapter)
  -- is the datagram from our peer?
  if !adapter.listening && ipDgram.header.src != adapter.config.destination.ipv4Numeric then
    return (none, adapter)
  if ipDgram.header.proto ≠ IPv4Header.protoTCP then
    return (none, adapter)
  let (result, tcpSeg) ←
    ({} : TCPSegment).parse (← ipDgram.payload.toBuffer) ipDgram.header.pseudoCksum
  if result ≠ .noError then
    return (none, adapter)
  -- is the segment for us?
  if tcpSeg.header.dport ≠ adapter.config.source.port then
    return (none, adapter)
  let mut adapter := adapter
  if adapter.listening then
    if tcpSeg.header.syn && !tcpSeg.header.rst then
      -- the reply goes to the source of the SYN, from the address it was sent to
      adapter :=
        { config :=
            { source := ⟨ipDgram.header.dst, adapter.config.source.port⟩
              destination := ⟨ipDgram.header.src, tcpSeg.header.sport⟩ }
          listening := false }
    else
      return (none, adapter)
  -- is the segment from our peer?
  if tcpSeg.header.sport ≠ adapter.config.destination.port then
    return (none, adapter)
  return (some tcpSeg, adapter)

/-- The datagram that carries a segment, and the segment with its ports set. -/
def wrapTcpInIp (adapter : TCPOverIPv4Adapter) (seg : TCPSegment) :
    Except StdException (IPv4Datagram × TCPSegment) := do
  let seg := { seg with header :=
    { seg.header with
      sport := adapter.config.source.port
      dport := adapter.config.destination.port } }
  let header : IPv4Header :=
    { src := adapter.config.source.ipv4Numeric
      dst := adapter.config.destination.ipv4Numeric }
  let header := { header with
    len := UInt16.ofNat
      (header.hlen.toNat * 4 + seg.header.doff.toNat * 4 + seg.payload.length) }
  let payload ← seg.serialize header.pseudoCksum
  return ({ header := header, payload := payload }, seg)

/-- Neither adapter listens, and each sends to the other. -/
structure Mirrors (a b : TCPOverIPv4Adapter) : Prop where
  not_listening : a.listening = false
  not_listening_peer : b.listening = false
  source : a.config.source = b.config.destination
  destination : a.config.destination = b.config.source

/-! ## Round trip -/

/-- The segment that `wrapTcpInIp` sends. -/
def addressed (adapter : TCPOverIPv4Adapter) (seg : TCPSegment) : TCPSegment :=
  { seg with header :=
    { seg.header with
      sport := adapter.config.source.port
      dport := adapter.config.destination.port } }

/-- The header that `wrapTcpInIp` writes. -/
def ipHeader (adapter : TCPOverIPv4Adapter) (seg : TCPSegment) : IPv4Header :=
  { src := adapter.config.source.ipv4Numeric
    dst := adapter.config.destination.ipv4Numeric
    len := UInt16.ofNat (20 + seg.header.doff.toNat * 4 + seg.payload.length) }

theorem pseudoCksum_lt (header : IPv4Header) : header.pseudoCksum.toNat < 2 ^ 20 := by
  have hsrc := InternetChecksum.carry_toNat header.src
  have hdst := InternetChecksum.carry_toNat header.dst
  have hsrcLt : header.src.toNat < 2 ^ 32 := header.src.toNat_lt
  have hdstLt : header.dst.toNat < 2 ^ 32 := header.dst.toNat_lt
  have hproto : header.proto.toNat < 256 := header.proto.toNat_lt
  have hlen : header.payloadLength.toNat < 65536 := header.payloadLength.toNat_lt
  simp only [IPv4Header.pseudoCksum]
  rw [UInt32.toNat_add, UInt32.toNat_add, UInt32.toNat_add, hsrc, hdst, UInt8.toNat_toUInt32,
    UInt16.toNat_toUInt32]
  omega

/-- The pseudo-header does not hold the checksum of the datagram. -/
theorem pseudoCksum_setCksum (header : IPv4Header) (cksum : UInt16) :
    { header with cksum := cksum }.pseudoCksum = header.pseudoCksum := rfl

variable {a b : TCPOverIPv4Adapter} {seg : TCPSegment}

theorem wrapTcpInIp_eq (a : TCPOverIPv4Adapter) (h5 : 5 ≤ seg.header.doff) :
    ∃ buffers, a.wrapTcpInIp seg =
        .ok ({ header := a.ipHeader seg, payload := buffers }, a.addressed seg) ∧
      buffers.concatenate =
        (a.addressed seg).wire ((a.addressed seg).checksum (a.ipHeader seg).pseudoCksum) := by
  obtain ⟨buffers, hserialize, hconcat⟩ :=
    TCPSegment.serialize_eq (a.addressed seg) h5 (a.ipHeader seg).pseudoCksum
  refine ⟨buffers, ?_, hconcat⟩
  have hwrap : a.wrapTcpInIp seg = (do
      let payload ← (a.addressed seg).serialize (a.ipHeader seg).pseudoCksum
      return ({ header := a.ipHeader seg, payload := payload }, a.addressed seg)) := rfl
  rw [hwrap, hserialize]
  rfl

/-- An adapter accepts the segments of its peer. -/
theorem unwrapTcpInIp_of_mirrors (h : Mirrors a b) {dgram : IPv4Datagram} {bytes : List UInt8}
    {tcpSeg : TCPSegment}
    (hsrc : dgram.header.src = a.config.source.ipv4Numeric)
    (hdst : dgram.header.dst = a.config.destination.ipv4Numeric) (hproto : dgram.header.proto = 6)
    (hpayload : dgram.payload = [bytes])
    (hparse : ({} : TCPSegment).parse bytes dgram.header.pseudoCksum = .ok (.noError, tcpSeg))
    (hsport : tcpSeg.header.sport = a.config.source.port)
    (hdport : tcpSeg.header.dport = a.config.destination.port) :
    b.unwrapTcpInIp dgram = .ok (some tcpSeg, b) := by
  have hbuffer : BufferList.toBuffer [bytes] = .ok bytes := rfl
  rw [h.source] at hsrc hsport
  rw [h.destination] at hdst hdport
  simp [unwrapTcpInIp, h.not_listening_peer, hsrc, hdst, hproto, IPv4Header.protoTCP, hpayload,
    hbuffer, hparse, hsport, hdport]

/-- **Round trip**: a segment that one adapter wraps, and whose datagram is serialised and parsed,
is unwrapped by its mirror with the same payload and header fields, the ports set and the checksum
filled in. -/
theorem unwrapTcpInIp_wrapTcpInIp (a b : TCPOverIPv4Adapter) (seg : TCPSegment) (h : Mirrors a b)
    (h5 : 5 ≤ seg.header.doff) (h15 : seg.header.doff ≤ 15)
    (hlen : 20 + 4 * seg.header.doff.toNat + seg.payload.length ≤ 65535) :
    ∃ sent dgram buffers parsed cksum,
      a.wrapTcpInIp seg = .ok (dgram, sent) ∧ dgram.serialize = .ok buffers ∧
      ({} : IPv4Datagram).parse buffers.concatenate = .ok (.noError, parsed) ∧
      b.unwrapTcpInIp parsed = .ok (some { seg with header :=
        { seg.header with
          sport := a.config.source.port
          dport := a.config.destination.port
          cksum := cksum } }, b) := by
  obtain ⟨payload, hwrap, hconcat⟩ := wrapTcpInIp_eq a h5
  let dgram : IPv4Datagram := { header := a.ipHeader seg, payload := payload }
  have hsize : dgram.payload.size = 4 * seg.header.doff.toNat + seg.payload.length := by
    rw [BufferList.size_eq_length_concatenate, hconcat]
    exact TCPSegment.length_wire h5 _
  have hdgramLen : dgram.header.len.toNat = 4 * dgram.header.hlen.toNat + dgram.payload.size := by
    rw [hsize]
    change (UInt16.ofNat (20 + seg.header.doff.toNat * 4 + seg.payload.length)).toNat = 20 + _
    rw [UInt16.toNat_ofNat', Nat.mod_eq_of_lt (by omega)]
    omega
  have h5hlen : (5 : UInt8) ≤ 5 := by decide
  have h15hlen : (5 : UInt8) ≤ 15 := by decide
  have hoffset : (0 : UInt16) < 0x2000 := by decide
  refine ⟨_, dgram, _, _, (a.addressed seg).checksum (a.ipHeader seg).pseudoCksum, hwrap,
    IPv4Datagram.serialize_eq rfl h5hlen hdgramLen,
    IPv4Datagram.parse_wire dgram rfl h5hlen h15hlen hoffset hdgramLen {}, ?_⟩
  refine unwrapTcpInIp_of_mirrors h rfl rfl rfl rfl ?_ rfl rfl
  have hsegLen : 4 * seg.header.doff.toNat + seg.payload.length ≤ 65535 := by omega
  rw [pseudoCksum_setCksum, hconcat]
  exact TCPSegment.parse_wire {} h5 h15 hsegLen (pseudoCksum_lt _)

theorem unwrapTcpInIp_wrapTcpInIp_syn :
    ∃ sent dgram buffers parsed cksum,
      ({ config := ⟨⟨1, 10⟩, ⟨2, 20⟩⟩ } : TCPOverIPv4Adapter).wrapTcpInIp
          { header := { syn := true }, payload := [3] } = .ok (dgram, sent) ∧
      dgram.serialize = .ok buffers ∧
      ({} : IPv4Datagram).parse buffers.concatenate = .ok (.noError, parsed) ∧
      ({ config := ⟨⟨2, 20⟩, ⟨1, 10⟩⟩ } : TCPOverIPv4Adapter).unwrapTcpInIp parsed =
        .ok (some
          { header := { syn := true, sport := 10, dport := 20, cksum := cksum }, payload := [3] },
          { config := ⟨⟨2, 20⟩, ⟨1, 10⟩⟩ }) :=
  unwrapTcpInIp_wrapTcpInIp { config := ⟨⟨1, 10⟩, ⟨2, 20⟩⟩ } { config := ⟨⟨2, 20⟩, ⟨1, 10⟩⟩ }
    { header := { syn := true }, payload := [3] } ⟨rfl, rfl, rfl, rfl⟩ (by decide) (by decide)
    (by decide)

end TCPOverIPv4Adapter

end Sponge
