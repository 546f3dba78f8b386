import Mathlib.Tactic
import Sponge.TCPHelpers.FdAdapter
import Sponge.TCPHelpers.Listening

/-!
# What an adapter does for a connection

A socket relies on its adapter in three ways. A read counts as a read of the descriptor that is
polled. What was written and arrives at the peer is read there as the segment that it was, up to the
ports and the checksum, which belong to the adapters. And an exception is one that the system has
caused: no segment that a connection sends makes an adapter throw. `LawfulFdAdapter` asks for this,
and the adapters over UDP and over a TUN device give it, with or without losses.

## Main definitions

* `TCPSegment.Fits`: a segment that any adapter can carry
* `TCPSegment.ArrivesAs`: a segment, and the same with the ports and the checksum of an adapter
* `LawfulFdAdapter`: the laws
-/

namespace Sponge

open Fallible (bind_eq_ok_iff bind_eq_error_iff ite_throw_eq_error_iff)

namespace TCPSegment

/-- **A segment that any adapter can carry**: without options, and with a payload within the
limit. -/
def Fits (seg : TCPSegment) : Prop :=
  seg.header.doff = 5 ∧ seg.payload.length ≤ TCPConfig.maxPayloadSize

/-- The segment with the fields that adapters set. -/
def readdressed (seg : TCPSegment) (sport dport cksum : UInt16) : TCPSegment :=
  { seg with header := { seg.header with sport := sport, dport := dport, cksum := cksum } }

/-- The segment arrives, with the ports and the checksum of an adapter. -/
def ArrivesAs (seg seg' : TCPSegment) : Prop :=
  ∃ sport dport cksum, seg' = seg.readdressed sport dport cksum

end TCPSegment

/-- **The laws of an adapter.** `Emits a segs` says that whatever `a` has put on the wire carries
one of the segments `segs`, and `Genuine a peer answer` that the answer to a read is a message of
`peer` if `a` takes it for one. -/
class LawfulFdAdapter (δ : Type) [FdAdapter δ] where
  Emits : δ → List TCPSegment → Prop
  Genuine : δ → δ → FdAdapter.Incoming δ → Prop
  emits_append : ∀ {a segs}, Emits a segs → ∀ seg, Emits a (segs ++ [seg])
  emits_read : ∀ {a segs answer r a'}, Emits a segs → FdAdapter.read answer a = .ok (r, a') →
    Emits a' segs
  emits_write : ∀ {a segs answer seg a'}, Emits a segs → seg.Fits →
    FdAdapter.write answer seg a = .ok a' → Emits a' (segs ++ [seg])
  read_genuine : ∀ {a peer segs answer seg a'}, Emits peer segs → Genuine a peer answer →
    FdAdapter.read answer a = .ok (some seg, a') → ∃ seg₀ ∈ segs, seg₀.ArrivesAs seg
  read_fd : ∀ {a : δ} {answer r} {a' : δ}, FdAdapter.read answer a = .ok (r, a') →
    (FdAdapter.fd a').readCount = (FdAdapter.fd a).readCount + 1 ∧
      (FdAdapter.fd a').closed = (FdAdapter.fd a).closed ∧
      ((FdAdapter.fd a).eof = true → (FdAdapter.fd a').eof = true)
  write_fd : ∀ {a : δ} {answer seg} {a' : δ}, FdAdapter.write answer seg a = .ok a' →
    (FdAdapter.fd a').closed = (FdAdapter.fd a).closed ∧
      (FdAdapter.fd a').eof = (FdAdapter.fd a).eof
  emits_setConfig : ∀ {a segs}, Emits a segs → ∀ config, Emits (FdAdapter.setConfig config a) segs
  emits_setListening : ∀ {a segs}, Emits a segs → ∀ listening,
    Emits (FdAdapter.setListening listening a) segs
  setConfig_fd : ∀ (a : δ) config, FdAdapter.fd (FdAdapter.setConfig config a) = FdAdapter.fd a
  setListening_fd : ∀ (a : δ) listening,
    FdAdapter.fd (FdAdapter.setListening listening a) = FdAdapter.fd a
  read_error : ∀ {a : δ} {answer e}, FdAdapter.read answer a = .error e → e.FromSystem
  write_error : ∀ {a : δ} {answer seg e}, seg.Fits → FdAdapter.write answer seg a = .error e →
    e.FromSystem

namespace TCPSegment

variable {seg : TCPSegment}

theorem Fits.doff_bounds (h : seg.Fits) : 5 ≤ seg.header.doff ∧ seg.header.doff ≤ 15 := by
  rw [h.1]
  decide

/-- A segment that fits has a length far below the limit. -/
theorem Fits.length_le (h : seg.Fits) :
    4 * seg.header.doff.toNat + seg.payload.length ≤ 65535 := by
  have hle := h.2
  unfold TCPConfig.maxPayloadSize at hle
  rw [h.1]
  change 4 * 5 + _ ≤ _
  omega

end TCPSegment

/-! ## UDP -/

namespace UDPSocket

theorem fromSystem_of_recv {sock : FileDescriptor} {answer : Except ℕ ReceivedDatagram}
    {e : SystemException} (h : recv sock answer = .error e) : e.FromSystem := by
  simp only [recv, bind_eq_error_iff, ite_throw_eq_error_iff] at h
  rcases h with hcall | ⟨datagram, -, ⟨-, rfl⟩ | ⟨-, hpure⟩⟩
  · exact fromSystem_of_systemCall hcall
  · exact Or.inr (Or.inr (Or.inr (Or.inr (Or.inl rfl))))
  · cases hpure

theorem fromSystem_of_sendto {sock : FileDescriptor} {payload : BufferViewList}
    {answer : Except ℕ ℕ} {e : SystemException} (h : sendto sock payload answer = .error e) :
    e.FromSystem := by
  simp only [sendto, bind_eq_error_iff, ite_throw_eq_error_iff] at h
  rcases h with hcall | ⟨n, -, ⟨-, rfl⟩ | ⟨-, hpure⟩⟩
  · exact fromSystem_of_systemCall hcall
  · exact Or.inr (Or.inr (Or.inr (Or.inr (Or.inr rfl))))
  · cases hpure

end UDPSocket

namespace TCPOverUDPSocketAdapter

variable {a a' : TCPOverUDPSocketAdapter}

/-- Every datagram that was sent carries one of the segments. -/
def Emits (a : TCPOverUDPSocketAdapter) (segs : List TCPSegment) : Prop :=
  ∀ d ∈ a.sent, ∃ seg ∈ segs, seg.Fits ∧ ∃ sport dport cksum,
    d.2 = (seg.readdressed sport dport cksum).wire
      ((seg.readdressed sport dport cksum).checksum 0)

/-- A datagram that passes for one of the peer was sent by the peer. -/
def Genuine (a peer : TCPOverUDPSocketAdapter) : Except ℕ ReceivedDatagram → Prop
  | .ok datagram => a.listening = true ∨ datagram.sourceAddress = a.config.destination →
      datagram.payload ∈ peer.sent.map Prod.snd
  | .error _ => True

theorem fromSystem_of_read {answer : Except ℕ ReceivedDatagram} {e : SystemException}
    (h : a.read answer = .error e) : e.FromSystem := by
  rcases bind_eq_error_iff.mp h with hrecv | ⟨⟨sock, datagram⟩, -, hrest⟩
  · exact UDPSocket.fromSystem_of_recv hrecv
  · -- parsing throws nothing
    obtain ⟨result, seg, hparse⟩ := TCPSegment.exists_parse {} datagram.payload 0
    dsimp only at hrest
    rw [hparse, rethrow_ok, ok_bind] at hrest
    dsimp only at hrest
    split_ifs at hrest <;> cases hrest

theorem fromSystem_of_write {answer : Except ℕ ℕ} {seg : TCPSegment} {e : SystemException}
    (hfits : seg.Fits) (h : a.write answer seg = .error e) : e.FromSystem := by
  obtain ⟨buffers, hserialize, -⟩ :=
    TCPSegment.serialize_eq (a.addressed seg) hfits.doff_bounds.1 0
  rcases bind_eq_error_iff.mp h with hthrow | ⟨payload, -, hrest⟩
  · rw [hserialize] at hthrow
    cases hthrow
  · rcases bind_eq_error_iff.mp hrest with hsend | ⟨sock, -, hpure⟩
    · exact UDPSocket.fromSystem_of_sendto hsend
    · cases hpure

theorem Emits.write {segs : List TCPSegment} (h : a.Emits segs) {answer : Except ℕ ℕ}
    {seg : TCPSegment} (hfits : seg.Fits) (hok : a.write answer seg = .ok a') :
    a'.Emits (segs ++ [seg]) := by
  obtain ⟨payload, hserialize, -, rfl⟩ := write_eq_ok hok
  obtain ⟨buffers, hserialize', hconcat⟩ :=
    TCPSegment.serialize_eq (a.addressed seg) hfits.doff_bounds.1 0
  rw [hserialize] at hserialize'
  cases hserialize'
  intro d hd
  rcases List.mem_append.mp hd with hd | hd
  · obtain ⟨seg₀, hmem, hseg⟩ := h d hd
    exact ⟨seg₀, List.mem_append_left _ hmem, hseg⟩
  · obtain rfl := List.mem_singleton.mp hd
    exact ⟨seg, List.mem_append_right _ (List.mem_singleton_self seg), hfits, _, _, _, hconcat⟩

/-- What the peer has sent is read as the segment that it was. -/
theorem Emits.read {peer : TCPOverUDPSocketAdapter} {segs : List TCPSegment} (h : peer.Emits segs)
    {answer : Except ℕ ReceivedDatagram} (hgenuine : a.Genuine peer answer) {seg : TCPSegment}
    (hok : a.read answer = .ok (some seg, a')) : ∃ seg₀ ∈ segs, seg₀.ArrivesAs seg := by
  obtain ⟨datagram, rfl, hread⟩ := read_eq_ok hok
  -- the datagram passes for one of the peer, and holds the segment
  have hpeer : (a.listening = true ∨ datagram.sourceAddress = a.config.destination) ∧
      Holds datagram seg := by
    split_ifs at hread with hlisten
    · rcases hread with ⟨hnone, -⟩ | ⟨seg', hsome, hholds, -⟩
      · cases hnone
      · cases hsome
        exact ⟨Or.inl hlisten, hholds⟩
    · obtain ⟨hsource, hholds⟩ := (hread.1 seg).mp rfl
      exact ⟨Or.inr hsource, hholds⟩
  obtain ⟨d, hd, hpayload⟩ := List.mem_map.mp (hgenuine hpeer.1)
  obtain ⟨seg₀, hmem, hfits, sport, dport, cksum, hwire⟩ := h d hd
  refine ⟨seg₀, hmem, sport, dport, (seg₀.readdressed sport dport cksum).checksum 0, ?_⟩
  have hparse : ({} : TCPSegment).parse ((seg₀.readdressed sport dport cksum).wire
      ((seg₀.readdressed sport dport cksum).checksum 0)) 0 = .ok (.noError, _) :=
    TCPSegment.parse_wire {} hfits.doff_bounds.1 hfits.doff_bounds.2 hfits.length_le (by decide)
  have hholds := hpeer.2
  unfold Holds at hholds
  rw [← hpayload, hwire, hparse] at hholds
  cases hholds
  rfl

instance : LawfulFdAdapter TCPOverUDPSocketAdapter where
  Emits := Emits
  Genuine := Genuine
  emits_append := by
    intro a segs h seg d hd
    obtain ⟨seg₀, hmem, hseg⟩ := h d hd
    exact ⟨seg₀, List.mem_append_left _ hmem, hseg⟩
  emits_read := by
    intro a segs answer r a' h hok
    obtain ⟨datagram, -, hread⟩ := read_eq_ok hok
    split_ifs at hread
    · rcases hread with ⟨-, -, rfl⟩ | ⟨seg, -, -, -, rfl⟩
      · exact h
      · exact h
    · obtain ⟨-, rfl⟩ := hread
      exact h
  emits_write := fun h hfits hok => h.write hfits hok
  read_genuine := fun h hgenuine hok => h.read hgenuine hok
  read_fd := by
    intro a answer r a' hok
    obtain ⟨datagram, -, hread⟩ := read_eq_ok hok
    split_ifs at hread
    · rcases hread with ⟨-, -, rfl⟩ | ⟨seg, -, -, -, rfl⟩
      · exact ⟨rfl, rfl, fun h => h⟩
      · exact ⟨rfl, rfl, fun h => h⟩
    · obtain ⟨-, rfl⟩ := hread
      exact ⟨rfl, rfl, fun h => h⟩
  write_fd := by
    intro a answer seg a' hok
    obtain ⟨payload, -, -, rfl⟩ := write_eq_ok hok
    exact ⟨rfl, rfl⟩
  emits_setConfig := fun h _ => h
  emits_setListening := fun h _ => h
  setConfig_fd := fun _ _ => rfl
  setListening_fd := fun _ _ => rfl
  read_error := fromSystem_of_read
  write_error := fromSystem_of_write

instance (a peer : TCPOverUDPSocketAdapter) :
    ∀ answer, Decidable (LawfulFdAdapter.Genuine a peer answer)
  | .ok _ => inferInstanceAs (Decidable (_ → _))
  | .error _ => isTrue trivial

end TCPOverUDPSocketAdapter

/-! ## IPv4 over a TUN device -/

namespace TCPOverIPv4Adapter

variable {adapter adapter' : TCPOverIPv4Adapter} {dgram : IPv4Datagram}

/-- Only what a datagram carries is returned. -/
theorem tcpSegment_of_unwrapTcpInIp {seg : TCPSegment}
    (h : adapter.unwrapTcpInIp dgram = .ok (some seg, adapter')) : dgram.tcpSegment = some seg := by
  cases hseg : dgram.tcpSegment with
  | none =>
    rcases adapter.unwrapTcpInIp_of_none hseg with ⟨e, herr⟩ | hnone
    · rw [herr] at h
      cases h
    · rw [hnone] at h
      cases h
  | some seg' =>
    cases hlisten : adapter.listening with
    | true =>
      rw [unwrapTcpInIp_listening hlisten hseg] at h
      split_ifs at h <;> cases h
      rfl
    | false =>
      rw [unwrapTcpInIp_connected hlisten hseg] at h
      split_ifs at h <;> cases h
      rfl

/-- A datagram whose payload is one buffer is unwrapped without an exception. -/
theorem exists_unwrapTcpInIp {bytes : List UInt8} (hpayload : dgram.payload = [bytes]) :
    ∃ r adapter', adapter.unwrapTcpInIp dgram = .ok (r, adapter') := by
  cases hseg : dgram.tcpSegment with
  | some seg =>
    cases hlisten : adapter.listening with
    | true => exact ⟨_, _, unwrapTcpInIp_listening hlisten hseg⟩
    | false => exact ⟨_, _, unwrapTcpInIp_connected hlisten hseg⟩
  | none =>
    rcases adapter.unwrapTcpInIp_of_none hseg with ⟨e, herr⟩ | hnone
    · -- what could throw is the conversion of the payload, or the parser
      exfalso
      have hbuffer : BufferList.toBuffer dgram.payload = .ok bytes := by
        rw [hpayload]
        rfl
      obtain ⟨result, seg, hparse⟩ := TCPSegment.exists_parse {} bytes dgram.header.pseudoCksum
      unfold unwrapTcpInIp at herr
      rw [hbuffer, ok_bind, hparse, ok_bind] at herr
      split at herr
      · cases herr
      split at herr
      · cases herr
      split at herr
      · cases herr
      rename_i hproto
      have hresult : result ≠ .noError := by
        rintro rfl
        rw [IPv4Datagram.tcpSegment_eq_some_iff.mpr ⟨not_not.mp hproto, bytes, hbuffer, hparse⟩]
          at hseg
        cases hseg
      dsimp only at herr
      rw [if_pos hresult] at herr
      cases herr
    · exact ⟨_, _, hnone⟩

/-- **What an adapter wraps** and a parser reads carries the segment. -/
theorem tcpSegment_of_wrapTcpInIp {seg : TCPSegment} (hfits : seg.Fits) :
    ∃ wrapped buffers parsed, adapter.wrapTcpInIp seg = .ok (wrapped, adapter.addressed seg) ∧
      wrapped.serialize = .ok buffers ∧
      ({} : IPv4Datagram).parse buffers.concatenate = .ok (.noError, parsed) ∧
      ∃ seg', parsed.tcpSegment = some seg' ∧ seg.ArrivesAs seg' := by
  obtain ⟨h5, h15⟩ := hfits.doff_bounds
  obtain ⟨payload, hwrap, hconcat⟩ := wrapTcpInIp_eq adapter h5
  let wrapped : IPv4Datagram := { header := adapter.ipHeader seg, payload := payload }
  have hsize : wrapped.payload.size = 20 + seg.payload.length := by
    rw [BufferList.size_eq_length_concatenate, hconcat]
    refine (TCPSegment.length_wire h5 _).trans ?_
    rw [hfits.1]
    rfl
  have hlen : wrapped.header.len.toNat = 4 * wrapped.header.hlen.toNat + wrapped.payload.size := by
    have hle := hfits.2
    unfold TCPConfig.maxPayloadSize at hle
    rw [hsize]
    change (UInt16.ofNat (20 + seg.header.doff.toNat * 4 + seg.payload.length)).toNat = 20 + _
    rw [hfits.1, UInt16.toNat_ofNat']
    change (20 + 5 * 4 + _) % 2 ^ 16 = _
    omega
  have h5hlen : (5 : UInt8) ≤ 5 := by decide
  have h15hlen : (5 : UInt8) ≤ 15 := by decide
  have hoffset : (0 : UInt16) < 0x2000 := by decide
  refine ⟨wrapped, _, _, hwrap, IPv4Datagram.serialize_eq rfl h5hlen hlen,
    IPv4Datagram.parse_wire wrapped rfl h5hlen h15hlen hoffset hlen {}, _,
    IPv4Datagram.tcpSegment_eq_some_iff.mpr ⟨rfl, payload.concatenate, rfl, ?_⟩,
    adapter.config.source.port, adapter.config.destination.port,
    (adapter.addressed seg).checksum (adapter.ipHeader seg).pseudoCksum, rfl⟩
  rw [hconcat]
  exact TCPSegment.parse_wire {} h5 h15 hfits.length_le (pseudoCksum_lt _)

end TCPOverIPv4Adapter

namespace TCPOverIPv4OverTunFdAdapter

variable {a a' : TCPOverIPv4OverTunFdAdapter}

/-- Every datagram that was written carries one of the segments. -/
def Emits (a : TCPOverIPv4OverTunFdAdapter) (segs : List TCPSegment) : Prop :=
  ∀ bytes ∈ a.sent, ∃ seg ∈ segs, ∃ parsed seg',
    ({} : IPv4Datagram).parse bytes = .ok (.noError, parsed) ∧ parsed.tcpSegment = some seg' ∧
      seg.ArrivesAs seg'

/-- A datagram that is taken for one of the connection was sent by the peer. -/
def Genuine (a peer : TCPOverIPv4OverTunFdAdapter) (answer : Except ℕ (List UInt8)) : Prop :=
  match answer, a.read answer with
  | .ok bytes, .ok (some _, _) => bytes ∈ peer.sent
  | _, _ => True

/-- The payload of a parsed datagram is one buffer. -/
theorem payload_of_parse {bytes : List UInt8} {result : ParseResult} {dgram : IPv4Datagram}
    (h : ({} : IPv4Datagram).parse bytes = .ok (result, dgram)) :
    ∃ payload, dgram.payload = [payload] := by
  obtain ⟨⟨⟨r, header⟩, p⟩, -, hrest⟩ := bind_eq_ok_iff.mp h
  dsimp only at hrest
  split_ifs at hrest
  · cases hrest
    exact ⟨_, rfl⟩
  · cases hrest
    exact ⟨_, rfl⟩

theorem read_eq_ok {answer : Except ℕ (List UInt8)} {r : Option TCPSegment}
    (h : a.read answer = .ok (r, a')) :
    ∃ bytes, a.tun.read noLimit answer = .ok (a'.tun, bytes) ∧ a'.sent = a.sent ∧
      ∀ seg, r = some seg → ∃ dgram,
        ({} : IPv4Datagram).parse bytes = .ok (.noError, dgram) ∧ dgram.tcpSegment = some seg := by
  obtain ⟨⟨tun, bytes⟩, hread, hrest⟩ := bind_eq_ok_iff.mp h
  obtain ⟨⟨result, dgram⟩, hparse, hrest⟩ := bind_eq_ok_iff.mp hrest
  dsimp only at hrest
  split_ifs at hrest with herror
  · cases hrest
    exact ⟨bytes, hread, rfl, fun seg hseg => by cases hseg⟩
  · obtain ⟨⟨seg, adapter⟩, hunwrap, heq⟩ := bind_eq_ok_iff.mp hrest
    cases heq
    refine ⟨bytes, hread, rfl, fun seg' hseg => ⟨dgram, ?_, ?_⟩⟩
    · rw [rethrow_eq_ok_iff.mp hparse, not_not.mp herror]
    · subst hseg
      exact TCPOverIPv4Adapter.tcpSegment_of_unwrapTcpInIp (rethrow_eq_ok_iff.mp hunwrap)

theorem write_eq_ok {kernel : ℕ → Except ℕ ℕ} {seg : TCPSegment}
    (h : a.write kernel seg = .ok a') :
    ∃ dgram wrapped buffers, a.adapter.wrapTcpInIp seg = .ok (dgram, wrapped) ∧
      dgram.serialize = .ok buffers ∧
      (∃ n, a.tun.write buffers true kernel = .ok (a'.tun, n)) ∧
      a'.sent = a.sent ++ [buffers.concatenate] := by
  obtain ⟨⟨dgram, wrapped⟩, hwrap, hrest⟩ := bind_eq_ok_iff.mp h
  obtain ⟨buffers, hserialize, hrest⟩ := bind_eq_ok_iff.mp hrest
  obtain ⟨⟨tun, n⟩, hwrite, heq⟩ := bind_eq_ok_iff.mp hrest
  cases heq
  exact ⟨dgram, wrapped, buffers, rethrow_eq_ok_iff.mp hwrap, rethrow_eq_ok_iff.mp hserialize,
    ⟨n, hwrite⟩, rfl⟩

theorem Emits.append {segs : List TCPSegment} (h : a.Emits segs) (seg : TCPSegment) :
    a.Emits (segs ++ [seg]) := by
  intro bytes hbytes
  obtain ⟨seg₀, hmem, hseg⟩ := h bytes hbytes
  exact ⟨seg₀, List.mem_append_left _ hmem, hseg⟩

theorem Emits.write {segs : List TCPSegment} (h : a.Emits segs) {kernel : ℕ → Except ℕ ℕ}
    {seg : TCPSegment} (hfits : seg.Fits) (hok : a.write kernel seg = .ok a') :
    a'.Emits (segs ++ [seg]) := by
  obtain ⟨dgram, wrapped, buffers, hwrap, hserialize, -, hsent⟩ := write_eq_ok hok
  obtain ⟨dgram', buffers', parsed, hwrap', hserialize', hparse, hseg⟩ :=
    a.adapter.tcpSegment_of_wrapTcpInIp hfits
  rw [hwrap] at hwrap'
  cases hwrap'
  rw [hserialize] at hserialize'
  cases hserialize'
  intro bytes hbytes
  rw [hsent] at hbytes
  rcases List.mem_append.mp hbytes with hbytes | hbytes
  · exact h.append seg bytes hbytes
  · obtain rfl := List.mem_singleton.mp hbytes
    obtain ⟨seg', hsome, harrives⟩ := hseg
    exact ⟨seg, List.mem_append_right _ (List.mem_singleton_self seg), parsed, seg', hparse, hsome,
      harrives⟩

/-- What the peer has written is read as the segment that it was. -/
theorem Emits.read {peer : TCPOverIPv4OverTunFdAdapter} {segs : List TCPSegment}
    (h : peer.Emits segs) {answer : Except ℕ (List UInt8)} (hgenuine : a.Genuine peer answer)
    {seg : TCPSegment} (hok : a.read answer = .ok (some seg, a')) :
    ∃ seg₀ ∈ segs, seg₀.ArrivesAs seg := by
  obtain ⟨bytes, hread, -, hseg⟩ := read_eq_ok hok
  obtain ⟨rfl, -, -⟩ := FileDescriptor.read_eq_ok_iff.mp hread
  obtain ⟨dgram, hparse, hsome⟩ := hseg seg rfl
  unfold Genuine at hgenuine
  rw [hok] at hgenuine
  obtain ⟨seg₀, hmem, parsed, seg', hparse', hsome', harrives⟩ := h bytes hgenuine
  rw [hparse] at hparse'
  cases hparse'
  rw [hsome] at hsome'
  cases hsome'
  exact ⟨seg₀, hmem, harrives⟩

theorem fromSystem_of_read {answer : Except ℕ (List UInt8)} {e : SystemException}
    (h : a.read answer = .error e) : e.FromSystem := by
  rcases bind_eq_error_iff.mp h with hread | ⟨⟨tun, bytes⟩, -, hrest⟩
  · exact FileDescriptor.fromSystem_of_read hread
  -- neither parsing nor unwrapping throws
  obtain ⟨result, dgram, hparse, -⟩ := IPv4Datagram.parse_spec bytes
  obtain ⟨payload, hpayload⟩ := payload_of_parse hparse
  obtain ⟨r, adapter, hunwrap⟩ := a.adapter.exists_unwrapTcpInIp hpayload
  dsimp only at hrest
  rw [hparse, rethrow_ok, ok_bind] at hrest
  dsimp only at hrest
  rw [hunwrap, rethrow_ok, ok_bind] at hrest
  split_ifs at hrest <;> cases hrest

theorem fromSystem_of_write {kernel : ℕ → Except ℕ ℕ} {seg : TCPSegment} {e : SystemException}
    (hfits : seg.Fits) (h : a.write kernel seg = .error e) : e.FromSystem := by
  obtain ⟨dgram, buffers, parsed, hwrap, hserialize, -, -⟩ :=
    a.adapter.tcpSegment_of_wrapTcpInIp hfits
  unfold write at h
  rw [hwrap, rethrow_ok, ok_bind] at h
  dsimp only at h
  rw [hserialize, rethrow_ok, ok_bind] at h
  rcases bind_eq_error_iff.mp h with hwrite | ⟨r, -, hpure⟩
  · exact FileDescriptor.fromSystem_of_write hwrite
  · cases hpure

instance : LawfulFdAdapter TCPOverIPv4OverTunFdAdapter where
  Emits := Emits
  Genuine := Genuine
  emits_append := Emits.append
  emits_read := by
    intro a segs answer r a' h hok
    obtain ⟨bytes, -, hsent, -⟩ := read_eq_ok hok
    change ∀ bytes ∈ a'.sent, _
    rw [hsent]
    exact h
  emits_write := fun h hfits hok => h.write hfits hok
  read_genuine := fun h hgenuine hok => h.read hgenuine hok
  read_fd := by
    intro a answer r a' hok
    obtain ⟨bytes, hread, -, -⟩ := read_eq_ok hok
    obtain ⟨-, -, htun⟩ := FileDescriptor.read_eq_ok_iff.mp hread
    change a'.tun.readCount = a.tun.readCount + 1 ∧ a'.tun.closed = a.tun.closed ∧
      (a.tun.eof = true → a'.tun.eof = true)
    rw [htun]
    exact ⟨rfl, rfl, fun heof => by simp [heof]⟩
  write_fd := by
    intro a kernel seg a' hok
    obtain ⟨-, -, buffers, -, -, ⟨n, hwrite⟩, -⟩ := write_eq_ok hok
    obtain ⟨-, counts, -, htun⟩ := (FileDescriptor.writeLoop_eq_ok_iff le_rfl).mp hwrite
    change a'.tun.closed = a.tun.closed ∧ a'.tun.eof = a.tun.eof
    rw [htun]
    exact ⟨rfl, rfl⟩
  emits_setConfig := fun h _ => h
  emits_setListening := fun h _ => h
  setConfig_fd := fun _ _ => rfl
  setListening_fd := fun _ _ => rfl
  read_error := fromSystem_of_read
  write_error := fromSystem_of_write

end TCPOverIPv4OverTunFdAdapter

/-! ## Losses -/

namespace LossyFdAdapter

variable {δ : Type} [FdAdapter δ] {a a' : LossyFdAdapter δ}

/-- The adapter under a lossy one is read, and at most what it returned is returned. -/
theorem read_eq_ok {answer : FdAdapter.Incoming δ × UInt32} {r : Option TCPSegment}
    (h : a.read answer = .ok (r, a')) :
    ∃ ret, FdAdapter.read answer.1 a.adapter = .ok (ret, a'.adapter) ∧ (r = none ∨ r = ret) := by
  obtain ⟨⟨ret, adapter⟩, hread, hrest⟩ := bind_eq_ok_iff.mp h
  refine ⟨ret, ?_⟩
  dsimp only at hrest
  split_ifs at hrest
  · cases hrest
    exact ⟨hread, Or.inl rfl⟩
  · cases hrest
    exact ⟨hread, Or.inr rfl⟩

/-- The adapter under a lossy one is written to, or nothing happens. -/
theorem write_eq_ok {answer : FdAdapter.Outgoing δ × UInt32} {seg : TCPSegment}
    (h : a.write answer seg = .ok a') :
    a' = a ∨ FdAdapter.write answer.1 seg a.adapter = .ok a'.adapter := by
  unfold write at h
  split_ifs at h
  · cases h
    exact Or.inl rfl
  · obtain ⟨adapter, hwrite, heq⟩ := bind_eq_ok_iff.mp h
    cases heq
    exact Or.inr hwrite

instance [LawfulFdAdapter δ] : LawfulFdAdapter (LossyFdAdapter δ) where
  Emits := fun a => LawfulFdAdapter.Emits a.adapter
  Genuine := fun a peer answer => LawfulFdAdapter.Genuine a.adapter peer.adapter answer.1
  emits_append := fun h seg => LawfulFdAdapter.emits_append h seg
  emits_read := by
    intro a segs answer r a' h hok
    obtain ⟨ret, hread, -⟩ := read_eq_ok hok
    exact LawfulFdAdapter.emits_read h hread
  emits_write := by
    intro a segs answer seg a' h hfits hok
    rcases write_eq_ok hok with rfl | hwrite
    · exact LawfulFdAdapter.emits_append h seg
    · exact LawfulFdAdapter.emits_write h hfits hwrite
  read_genuine := by
    intro a peer segs answer seg a' h hgenuine hok
    obtain ⟨ret, hread, hnone | rfl⟩ := read_eq_ok hok
    · cases hnone
    · exact LawfulFdAdapter.read_genuine h hgenuine hread
  read_fd := by
    intro a answer r a' hok
    obtain ⟨ret, hread, -⟩ := read_eq_ok hok
    exact LawfulFdAdapter.read_fd (a := a.adapter) hread
  write_fd := by
    intro a answer seg a' hok
    rcases write_eq_ok hok with rfl | hwrite
    · exact ⟨rfl, rfl⟩
    · exact LawfulFdAdapter.write_fd (a := a.adapter) hwrite
  emits_setConfig := fun h config => LawfulFdAdapter.emits_setConfig h config.1
  emits_setListening := fun h listening => LawfulFdAdapter.emits_setListening h listening
  setConfig_fd := fun a config => LawfulFdAdapter.setConfig_fd a.adapter config.1
  setListening_fd := fun a listening => LawfulFdAdapter.setListening_fd a.adapter listening
  read_error := by
    intro a answer e h
    rcases bind_eq_error_iff.mp h with hread | ⟨⟨ret, adapter⟩, -, hrest⟩
    · exact LawfulFdAdapter.read_error hread
    · dsimp only at hrest
      split_ifs at hrest <;> cases hrest
  write_error := by
    intro a answer seg e hfits h
    change a.write answer seg = .error e at h
    unfold write at h
    split_ifs at h
    · cases h
    · rcases bind_eq_error_iff.mp h with hwrite | ⟨r, -, hpure⟩
      · exact LawfulFdAdapter.write_error hfits hwrite
      · cases hpure

end LossyFdAdapter

end Sponge
