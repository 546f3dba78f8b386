import Mathlib.Tactic
import Mathlib.Data.List.TakeWhile
import Sponge.Foundations.Run
import Sponge.TCPHelpers.TCPOverIP

/-!
# A listening adapter

`unwrap_tcp_in_ip` filters datagrams, learns the addresses of a connection and returns its segments
in one function, which changes the configuration halfway through its tests. Split into what a
listening and what a connected adapter does, it is a machine with two states: it waits for the first
SYN to its port, and from then on returns only what the sender of that SYN sends to the same address
and port.

## Main definitions

* `IPv4Datagram.tcpSegment`: the segment that a datagram carries
* `IPv4Datagram.opens`: the datagram carries a SYN without RST to a port
* `TCPOverIPv4Adapter.receive`, `TCPOverIPv4Adapter.returned`: a run of an adapter

## Main results

* `TCPOverIPv4Adapter.unwrapTcpInIp_listening`, `TCPOverIPv4Adapter.unwrapTcpInIp_connected`: the
  two states
* `listening_adapter_locks_on`: a listening adapter locks on to one peer
-/

namespace Sponge

namespace IPv4Datagram

/-- The segment that a datagram carries: the protocol is TCP, and the payload is parsed without an
exception or an error. -/
def tcpSegment (dgram : IPv4Datagram) : Option TCPSegment :=
  if dgram.header.proto = IPv4Header.protoTCP then
    match dgram.payload.toBuffer >>= fun buffer =>
        ({} : TCPSegment).parse buffer dgram.header.pseudoCksum with
    | .ok (.noError, seg) => some seg
    | _ => none
  else none

theorem tcpSegment_eq_some_iff {dgram : IPv4Datagram} {seg : TCPSegment} :
    dgram.tcpSegment = some seg ↔ dgram.header.proto = IPv4Header.protoTCP ∧
      ∃ buffer, dgram.payload.toBuffer = .ok buffer ∧
        ({} : TCPSegment).parse buffer dgram.header.pseudoCksum = .ok (.noError, seg) := by
  unfold tcpSegment
  split_ifs with hproto
  · cases hbuffer : dgram.payload.toBuffer with
    | error e => simp
    | ok buffer =>
      rw [ok_bind]
      rcases hparse : ({} : TCPSegment).parse buffer dgram.header.pseudoCksum with e | ⟨r, seg'⟩
      · simp [hproto, hparse]
      · cases r <;> simp [hproto, hparse]
  · simp [hproto]

/-- The datagram carries a segment to `port` with SYN and without RST. -/
def opens (port : UInt16) (dgram : IPv4Datagram) : Bool :=
  dgram.tcpSegment.any fun seg =>
    seg.header.dport == port && seg.header.syn && !seg.header.rst

theorem opens_iff {port : UInt16} {dgram : IPv4Datagram} :
    dgram.opens port = true ↔ ∃ seg, dgram.tcpSegment = some seg ∧ seg.header.dport = port ∧
      seg.header.syn = true ∧ seg.header.rst = false := by
  simp [opens, Option.any_eq_true, and_assoc]

end IPv4Datagram

namespace TCPOverIPv4Adapter

variable {adapter : TCPOverIPv4Adapter} {dgram : IPv4Datagram} {seg : TCPSegment}

/-- The adapter after a datagram; an exception leaves it as it was. -/
def receive (adapter : TCPOverIPv4Adapter) (dgram : IPv4Datagram) : TCPOverIPv4Adapter :=
  match adapter.unwrapTcpInIp dgram with
  | .ok (_, adapter') => adapter'
  | .error _ => adapter

/-- The segment that the adapter returns for a datagram, if any. -/
def returned (adapter : TCPOverIPv4Adapter) (dgram : IPv4Datagram) : Option TCPSegment :=
  match adapter.unwrapTcpInIp dgram with
  | .ok (result, _) => result
  | .error _ => none

/-- The adapter that has taken its peer from a datagram with the segment `seg`. -/
def lockedOn (adapter : TCPOverIPv4Adapter) (dgram : IPv4Datagram) (seg : TCPSegment) :
    TCPOverIPv4Adapter where
  config :=
    { source := ⟨dgram.header.dst, adapter.config.source.port⟩
      destination := ⟨dgram.header.src, seg.header.sport⟩ }
  listening := false

/-! ## The two states -/

/-- A datagram that carries no segment is dropped, or parsing it throws an exception. -/
theorem unwrapTcpInIp_of_none (adapter : TCPOverIPv4Adapter) (h : dgram.tcpSegment = none) :
    (∃ e, adapter.unwrapTcpInIp dgram = .error e) ∨
      adapter.unwrapTcpInIp dgram = .ok (none, adapter) := by
  unfold unwrapTcpInIp
  -- the tests of the source in their order, up to that of the result of the parser
  by_cases hdst :
      (!adapter.listening && dgram.header.dst != adapter.config.source.ipv4Numeric) = true
  · exact Or.inr (if_pos hdst)
  rw [if_neg hdst]
  by_cases hsrc :
      (!adapter.listening && dgram.header.src != adapter.config.destination.ipv4Numeric) = true
  · exact Or.inr (if_pos hsrc)
  rw [if_neg hsrc]
  by_cases hproto : dgram.header.proto = IPv4Header.protoTCP
  · rw [if_neg (not_not.mpr hproto)]
    cases hbuffer : dgram.payload.toBuffer with
    | error e => exact Or.inl ⟨e, rfl⟩
    | ok buffer =>
      rw [ok_bind]
      rcases hparse : ({} : TCPSegment).parse buffer dgram.header.pseudoCksum with e | ⟨r, seg⟩
      · exact Or.inl ⟨e, rfl⟩
      · have hr : r ≠ .noError := by
          rintro rfl
          have hcarried :=
            IPv4Datagram.tcpSegment_eq_some_iff.mpr ⟨hproto, buffer, hbuffer, hparse⟩
          rw [h] at hcarried
          cases hcarried
        exact Or.inr (if_pos hr)
  · exact Or.inr (if_pos hproto)

theorem unwrapTcpInIp_listening (h : adapter.listening = true)
    (hseg : dgram.tcpSegment = some seg) :
    adapter.unwrapTcpInIp dgram =
      .ok (if dgram.opens adapter.config.source.port then (some seg, adapter.lockedOn dgram seg)
        else (none, adapter)) := by
  obtain ⟨hproto, buffer, hbuffer, hparse⟩ := IPv4Datagram.tcpSegment_eq_some_iff.mp hseg
  have hopens : dgram.opens adapter.config.source.port =
      (seg.header.dport == adapter.config.source.port && seg.header.syn && !seg.header.rst) := by
    simp [IPv4Datagram.opens, hseg]
  rw [hopens]
  unfold unwrapTcpInIp
  by_cases hport : seg.header.dport = adapter.config.source.port
  · cases hsyn : seg.header.syn with
    | false => simp [h, hproto, hbuffer, hparse, hport, hsyn]
    | true =>
      cases hrst : seg.header.rst with
      | false => simp [h, hproto, hbuffer, hparse, hport, hsyn, hrst, lockedOn]
      | true => simp [h, hproto, hbuffer, hparse, hport, hsyn, hrst]
  · simp [h, hproto, hbuffer, hparse, hport]

theorem unwrapTcpInIp_connected (h : adapter.listening = false)
    (hseg : dgram.tcpSegment = some seg) :
    adapter.unwrapTcpInIp dgram =
      .ok (if dgram.header.dst = adapter.config.source.ipv4Numeric ∧
          dgram.header.src = adapter.config.destination.ipv4Numeric ∧
          seg.header.dport = adapter.config.source.port ∧
          seg.header.sport = adapter.config.destination.port then some seg else none,
        adapter) := by
  obtain ⟨hproto, buffer, hbuffer, hparse⟩ := IPv4Datagram.tcpSegment_eq_some_iff.mp hseg
  unfold unwrapTcpInIp
  by_cases hdst : dgram.header.dst = adapter.config.source.ipv4Numeric
  · by_cases hsrc : dgram.header.src = adapter.config.destination.ipv4Numeric
    · by_cases hdport : seg.header.dport = adapter.config.source.port
      · by_cases hsport : seg.header.sport = adapter.config.destination.port
        · simp [h, hproto, hbuffer, hparse, hdst, hsrc, hdport, hsport]
        · simp [h, hproto, hbuffer, hparse, hdst, hsrc, hdport, hsport]
      · simp [h, hproto, hbuffer, hparse, hdst, hsrc, hdport]
    · simp [h, hdst, hsrc]
  · simp [h, hdst]

theorem receive_of_none (adapter : TCPOverIPv4Adapter) (h : dgram.tcpSegment = none) :
    adapter.receive dgram = adapter ∧ adapter.returned dgram = none := by
  unfold receive returned
  rcases adapter.unwrapTcpInIp_of_none h with ⟨e, heq⟩ | heq
  · rw [heq]
    exact ⟨rfl, rfl⟩
  · rw [heq]
    exact ⟨rfl, rfl⟩

/-- **A listening adapter** takes its peer from the first datagram that opens a connection, and
drops the others. -/
theorem receive_listening (h : adapter.listening = true) (hseg : dgram.tcpSegment = some seg) :
    if dgram.opens adapter.config.source.port then
      adapter.receive dgram = adapter.lockedOn dgram seg ∧ adapter.returned dgram = some seg
    else adapter.receive dgram = adapter ∧ adapter.returned dgram = none := by
  unfold receive returned
  rw [unwrapTcpInIp_listening h hseg]
  split_ifs
  · exact ⟨rfl, rfl⟩
  · exact ⟨rfl, rfl⟩

/-- **A connected adapter** stays as it is, and returns only segments between its two ends. -/
theorem receive_connected (h : adapter.listening = false) :
    adapter.receive dgram = adapter ∧
      ∀ seg ∈ adapter.returned dgram,
        dgram.header.src = adapter.config.destination.ipv4Numeric ∧
          dgram.header.dst = adapter.config.source.ipv4Numeric ∧
          seg.header.sport = adapter.config.destination.port ∧
          seg.header.dport = adapter.config.source.port := by
  cases hcarried : dgram.tcpSegment with
  | none =>
    obtain ⟨hsame, hnone⟩ := adapter.receive_of_none hcarried
    refine ⟨hsame, ?_⟩
    simp [hnone]
  | some seg =>
    unfold receive returned
    rw [unwrapTcpInIp_connected h hcarried]
    refine ⟨rfl, fun seg' hseg' => ?_⟩
    dsimp only at hseg'
    split_ifs at hseg' with hends
    · obtain ⟨hdst, hsrc, hdport, hsport⟩ := hends
      cases hseg'
      exact ⟨hsrc, hdst, hsport, hdport⟩
    · cases hseg'

/-- A listening adapter drops what does not open a connection. -/
theorem receive_waiting (h : adapter.listening = true)
    (hopens : dgram.opens adapter.config.source.port = false) :
    adapter.receive dgram = adapter ∧ adapter.returned dgram = none := by
  cases hcarried : dgram.tcpSegment with
  | none => exact adapter.receive_of_none hcarried
  | some seg =>
    have hdropped := receive_listening h hcarried
    rwa [hopens, if_neg Bool.false_ne_true] at hdropped

/-! ## Runs -/

/-- **Before the first SYN** to its port a listening adapter stays as it is and returns nothing. -/
theorem exec_waiting (h : adapter.listening = true) {before : List IPv4Datagram}
    (hbefore : ∀ dgram ∈ before, dgram.opens adapter.config.source.port = false) :
    Run.exec receive adapter before = adapter ∧
      Run.Always receive (fun a dgram => a.receive dgram = adapter ∧ a.returned dgram = none)
        adapter before := by
  have hguard : Run.Always receive
      (fun _ dgram => dgram.opens adapter.config.source.port = false) adapter before :=
    Run.always_of_forall hbefore
  constructor
  · refine Run.invariant (I := fun a => a = adapter) ?_ rfl hguard
    rintro a dgram rfl hopens
    exact (receive_waiting h hopens).1
  · refine Run.always_of_invariant (I := fun a => a = adapter) ?_ ?_ rfl hguard
    · rintro a dgram rfl hopens
      exact (receive_waiting h hopens).1
    · rintro a dgram rfl hopens
      exact receive_waiting h hopens

/-- **A connected adapter** returns only segments between its two ends, and never changes. -/
theorem always_connected (h : adapter.listening = false) (dgrams : List IPv4Datagram) :
    Run.Always receive
      (fun a dgram => a.receive dgram = adapter ∧ ∀ seg ∈ a.returned dgram,
        dgram.header.src = adapter.config.destination.ipv4Numeric ∧
          dgram.header.dst = adapter.config.source.ipv4Numeric ∧
          seg.header.sport = adapter.config.destination.port ∧
          seg.header.dport = adapter.config.source.port) adapter dgrams := by
  refine Run.always_of_preserved (I := fun a => a = adapter) ?_ ?_ rfl dgrams
  · rintro a dgram rfl
    exact (receive_connected h).1
  · rintro a dgram rfl
    exact receive_connected h

end TCPOverIPv4Adapter

/-- **A listening adapter locks on to one peer.** Of any sequence of datagrams, those before the
first one that carries a segment to the configured port with SYN and without RST leave a listening
adapter as it is, and nothing is returned for them. That datagram is returned and sets the
configuration: its destination address and the configured port, and its source address and port.
From then on nothing changes, and every segment that is returned came from that source to that
destination. -/
theorem listening_adapter_locks_on (config : FdAdapterConfig) (dgrams : List IPv4Datagram) :
    let adapter : TCPOverIPv4Adapter := { config := config, listening := true }
    let before := dgrams.takeWhile fun dgram => !dgram.opens config.source.port
    Run.exec TCPOverIPv4Adapter.receive adapter before = adapter ∧
      Run.Always TCPOverIPv4Adapter.receive
        (fun a dgram => a.receive dgram = adapter ∧ a.returned dgram = none) adapter before ∧
      ∀ first after,
        (dgrams.dropWhile fun dgram => !dgram.opens config.source.port) = first :: after →
        ∃ syn, first.tcpSegment = some syn ∧ syn.header.dport = config.source.port ∧
          syn.header.syn = true ∧ syn.header.rst = false ∧ adapter.returned first = some syn ∧
          let locked : TCPOverIPv4Adapter :=
            { config :=
                { source := ⟨first.header.dst, config.source.port⟩
                  destination := ⟨first.header.src, syn.header.sport⟩ }
              listening := false }
          adapter.receive first = locked ∧
          Run.Always TCPOverIPv4Adapter.receive
            (fun a dgram => a.receive dgram = locked ∧ ∀ seg ∈ a.returned dgram,
              dgram.header.src = first.header.src ∧ dgram.header.dst = first.header.dst ∧
                seg.header.sport = syn.header.sport ∧ seg.header.dport = config.source.port)
            locked after := by
  intro adapter before
  have hbefore : ∀ dgram ∈ before, dgram.opens config.source.port = false := by
    intro dgram hmem
    simpa using List.mem_takeWhile_imp hmem
  have hlistening : adapter.listening = true := rfl
  obtain ⟨hexec, halways⟩ := TCPOverIPv4Adapter.exec_waiting hlistening hbefore
  refine ⟨hexec, halways, fun first after hsplit => ?_⟩
  -- the first datagram of the rest opens a connection
  have hopens : first.opens config.source.port = true := by
    have hne : (dgrams.dropWhile fun dgram => !dgram.opens config.source.port) ≠ [] := by
      simp [hsplit]
    have hhead := List.head_dropWhile_not
      (fun dgram : IPv4Datagram => !dgram.opens config.source.port) hne
    simpa [hsplit] using hhead
  obtain ⟨syn, hcarried, hport, hsyn, hrst⟩ := IPv4Datagram.opens_iff.mp hopens
  have hfirst := TCPOverIPv4Adapter.receive_listening hlistening hcarried
  rw [if_pos hopens] at hfirst
  exact ⟨syn, hcarried, hport, hsyn, hrst, hfirst.2, hfirst.1,
    TCPOverIPv4Adapter.always_connected rfl after⟩

/-- A SYN from port `10` of address `1` to port `20` of address `2` opens a connection. -/
example :
    IPv4Datagram.opens 20
      { header := { len := 40, src := 1, dst := 2 }
        payload :=
          [[0, 10, 0, 20, 0, 0, 0, 0, 0, 0, 0, 0, 80, 2, 0, 0, 175, 194, 0, 0]] } = true := by
  decide +kernel

end Sponge
