import Mathlib.Tactic
import Sponge.TCPHelpers.TCPSpongeSocket.Service

/-!
# The lifetime of a socket

A socket lives from `connect` or `listen_and_accept` to the end of its thread. Its invariant holds
all that time, whatever arrives from the network, whatever the application does, and whenever the
clock is read.

## Main definitions

* `SocketLoop.Sound`: the invariant, with the rules that are left
* `SocketLoop.Started`: what `connect` and `listen_and_accept` return

## Main results

* `SocketLoop.Sound.turn`, `SocketLoop.Sound.tcpLoop`: every turn and every run keep the invariant
* `socket_errors`: the exceptions of a socket are those of the system
* `socket_exit_complete`: the thread ends when both streams are finished
* `socket_fully_acked`: the note of a fully acknowledged stream agrees with the count of the sender
-/

namespace Sponge

open Fallible (bind_eq_ok_iff bind_eq_error_iff map_eq_ok_iff)

namespace SocketLoop

variable {δ : Type} [FdAdapter δ] {hup : Prop} {l l' : SocketLoop δ}

/-- **The invariant of a socket** with the rules that are left. -/
structure Sound (hup : Prop) (l : SocketLoop δ) : Prop where
  rules : l.rules.Sublist [.receiveDatagram, .readOutbound, .writeInbound, .sendSegments]
  socket : l.socket.Sound hup l.rules

theorem Sound.nodup (h : l.Sound hup) : l.rules.Nodup :=
  List.Nodup.sublist h.rules (by decide)

/-- The clock is read again. -/
theorem Sound.restart (h : l.Sound hup) (now : ℕ) : Sound hup { l with baseTime := now } :=
  ⟨h.rules, h.socket⟩

/-! ## Turns -/

theorem turn_eq_ok {t : SocketTurn δ} {done : Bool} (h : turn t l = .ok (done, l')) :
    ∃ ret rules socket,
      EventLoop.waitNextEvent TCPSpongeSocket.rule t.result l.rules l.socket =
        .ok (ret, rules, socket) ∧
      ((done = true ∧ (ret = .exit ∨ t.abort = true) ∧
          l' = { l with rules := rules, socket := socket }) ∨
        (done = false ∧ l' = { l with rules := rules, socket := socket }.tick t.now t.stale)) := by
  obtain ⟨⟨ret, rules, socket⟩, hwait, hrest⟩ := bind_eq_ok_iff.mp h
  refine ⟨ret, rules, socket, hwait, ?_⟩
  dsimp only at hrest
  split_ifs at hrest with hstop
  · cases hrest
    exact Or.inl ⟨rfl, hstop, rfl⟩
  · cases hrest
    exact Or.inr ⟨rfl, rfl⟩

theorem turn_eq_error {t : SocketTurn δ} {e : SystemException} (h : turn t l = .error e) :
    EventLoop.waitNextEvent TCPSpongeSocket.rule t.result l.rules l.socket = .error e := by
  rcases bind_eq_error_iff.mp h with hwait | ⟨⟨ret, rules, socket⟩, -, hrest⟩
  · exact hwait
  · dsimp only at hrest
    split_ifs at hrest <;> cases hrest

variable [LawfulFdAdapter δ] {Arrives : TCPSegment → Prop} {J : TCPSpongeSocket δ → Prop}
  (Fairly : SocketRule → SocketAnswers δ → TCPSpongeSocket δ → Prop)

/-- The time is a call of the connection. -/
theorem evolves_tick (Arrives : TCPSegment → Prop) (h : l.Sound hup) (now : ℕ)
    (stale : TCPSegment) :
    TCPSpongeSocket.Evolves Arrives l.socket (l.tick now stale).socket ∧
      (l.tick now stale).Sound hup := by
  unfold tick
  split_ifs with hactive
  · have href : TCPSpongeSocket.Refines Arrives l.socket
        { l.socket with tcp := l.socket.tcp.tick stale (now - l.baseTime) } :=
      TCPSpongeSocket.refines_of_tcp h.socket.conducts (.tick stale (now - l.baseTime))
        (fun _ => trivial) (by simp) (by simp) rfl (by simp)
    refine ⟨⟨href, Or.inl⟩, h.rules, ?_⟩
    exact h.socket.refine href rfl ⟨rfl, fun heof => heof⟩ h.socket.ended (fun hend => hend)
      fun hnoted => ⟨(h.socket.acked hnoted).1, Or.inl hnoted⟩
  · exact ⟨⟨fun wire => ⟨[], wire, trivial, rfl, fun he => he⟩, Or.inl⟩, h⟩

/-- **A turn** keeps the invariant and what the steps of a socket keep, and throws what the system
makes it throw. -/
theorem Sound.turn (h : l.Sound hup) (hJ : J l.socket)
    (hfair : ∀ i answers s, J s → Fairly i answers s → TCPSpongeSocket.Fair Arrives i answers s)
    (hstep : ∀ s s', J s → TCPSpongeSocket.Evolves Arrives s s' → J s') {t : SocketTurn δ}
    (hturn : EventLoop.FairTurn TCPSpongeSocket.rule Fairly t.result l.rules l.socket)
    (hhup : t.result.HungUp → hup) :
    (∀ done l', turn t l = .ok (done, l') → l'.Sound hup ∧ J l'.socket) ∧
      ∀ e, SocketLoop.turn t l = .error e → e = EventLoop.pollError ∨ e.FromSystem := by
  obtain ⟨hok, herr⟩ := (TCPSpongeSocket.safe hup hfair hstep).waitNextEvent h.nodup
    ⟨h.socket, hJ⟩ hturn hhup
  refine ⟨fun done l' hl' => ?_, fun e he => ?_⟩
  · obtain ⟨ret, rules, socket, hwait, hcases⟩ := turn_eq_ok hl'
    obtain ⟨hsocket, hJ'⟩ := hok _ _ _ hwait
    have hl : Sound hup { l with rules := rules, socket := socket } :=
      ⟨(EventLoop.waitNextEvent_sublist hwait).trans h.rules, hsocket⟩
    rcases hcases with ⟨-, -, rfl⟩ | ⟨-, rfl⟩
    · exact ⟨hl, hJ'⟩
    · obtain ⟨hevolves, hsound⟩ := evolves_tick Arrives hl t.now t.stale
      exact ⟨hsound, hstep _ _ hJ' hevolves⟩
  · exact (herr e (turn_eq_error he)).imp_right TCPSpongeSocket.fromSystem_of_throws

/-- A turn of a socket to which anything may arrive. -/
theorem Sound.turn_any (h : l.Sound hup) (hJ : J l.socket)
    (hstep : ∀ s s', J s → TCPSpongeSocket.Evolves (fun _ => True) s s' → J s') {t : SocketTurn δ}
    (hhup : t.result.HungUp → hup) :
    (∀ done l', SocketLoop.turn t l = .ok (done, l') → l'.Sound hup ∧ J l'.socket) ∧
      ∀ e, SocketLoop.turn t l = .error e → e = EventLoop.pollError ∨ e.FromSystem := by
  refine h.turn (fun _ _ _ => True) hJ ?_ hstep
    (EventLoop.fairTurn_of_forall (fun _ _ _ => trivial) _ _ _) hhup
  intro i answers s _ _
  cases i with
  | receiveDatagram =>
    exact fun seg _ _ => ⟨seg, trivial, seg.header.sport, seg.header.dport, seg.header.cksum, rfl⟩
  | _ => trivial

/-- **A run** keeps the invariant, and throws what the system makes it throw. -/
theorem Sound.tcpLoop (h : l.Sound hup) (condition : TCPSpongeSocket δ → Bool)
    {turns : List (SocketTurn δ)} (hhup : ∀ t ∈ turns, t.result.HungUp → hup) :
    (∀ done l', tcpLoop condition turns l = .ok (done, l') → l'.Sound hup) ∧
      ∀ e, SocketLoop.tcpLoop condition turns l = .error e →
        e = EventLoop.pollError ∨ e.FromSystem := by
  induction turns generalizing l with
  | nil => exact ⟨fun done l' hl' => by cases hl'; exact h, fun e he => by cases he⟩
  | cons t turns ih =>
    obtain ⟨hfirst, hlater⟩ := List.forall_mem_cons.mp hhup
    obtain ⟨hok, herr⟩ := h.turn_any (J := fun _ => True) trivial (fun _ _ _ _ => trivial) hfirst
    refine ⟨fun done l' hl' => ?_, fun e he => ?_⟩
    · unfold SocketLoop.tcpLoop at hl'
      split_ifs at hl' with hstop
      · cases hl'
        exact h
      · obtain ⟨⟨last, l₁⟩, hturn, hrest⟩ := bind_eq_ok_iff.mp hl'
        dsimp only at hrest
        split_ifs at hrest
        · cases hrest
          exact (hok _ _ hturn).1
        · exact (ih (hok _ _ hturn).1 hlater).1 _ _ hrest
    · unfold SocketLoop.tcpLoop at he
      split_ifs at he with hstop
      · cases he
      · rcases bind_eq_error_iff.mp he with hturn | ⟨⟨last, l₁⟩, hturn, hrest⟩
        · exact herr e hturn
        · dsimp only at hrest
          split_ifs at hrest
          · cases hrest
          · exact (ih (hok _ _ hturn).1 hlater).2 _ hrest

/-- The thread ends when no rule is interested, unless a signal was caught or the owner has asked
it to stop. -/
theorem Sound.uninterested_of_done (h : l.Sound hup) {turns : List (SocketTurn δ)}
    (hhup : ∀ t ∈ turns, t.result.HungUp → hup)
    (hquiet : ∀ t ∈ turns, t.abort = false ∧ t.result ≠ .interrupted)
    (hrun : SocketLoop.tcpLoop (fun _ => true) turns l = .ok (true, l')) :
    ∀ i ∈ l'.rules, (TCPSpongeSocket.rule i).interest l'.socket = false := by
  induction turns generalizing l with
  | nil => cases hrun
  | cons t turns ih =>
    obtain ⟨hfirst, hlater⟩ := List.forall_mem_cons.mp hhup
    obtain ⟨⟨habort, hsignal⟩, hquiet⟩ := List.forall_mem_cons.mp hquiet
    obtain ⟨⟨last, l₁⟩, hturn, hrest⟩ := bind_eq_ok_iff.mp hrun
    dsimp only at hrest
    split_ifs at hrest with hlast
    · cases hrest
      obtain ⟨ret, rules, socket, hwait, ⟨-, hstop, rfl⟩ | ⟨hgoes, -⟩⟩ := turn_eq_ok hturn
      · rcases hstop with rfl | habort'
        · exact EventLoop.uninterested_of_exit
            (TCPSpongeSocket.interest_stable.sublist h.rules) hsignal hwait
        · rw [habort] at habort'
          cases habort'
      · rw [hlast] at hgoes
        cases hgoes
    · have hnext := h.turn_any (J := fun _ => True) trivial (fun _ _ _ _ => trivial) hfirst
      exact ih (hnext.1 _ _ hturn).1 hlater hquiet hrest

/-! ## The start -/

variable {config : TCPConfig} {randomIsn : WrappingInt32} {adapterConfig : FdAdapter.Config δ}
  {adapter : δ} {now : ℕ}

omit [LawfulFdAdapter δ] in
/-- A fresh socket satisfies the invariant. -/
theorem sound_initializeTCP (hcapacity : 1 ≤ config.recvCapacity)
    (hopen : (FdAdapter.fd adapter).closed = false) :
    (TCPSpongeSocket.initializeTCP config randomIsn adapter).Sound hup
      [.receiveDatagram, .readOutbound, .writeInbound, .sendSegments] where
  conducts := ⟨TCPConnection.conducts_new config randomIsn hcapacity, rfl, rfl⟩
  data_open := rfl
  adapter_open := hopen
  ended := fun h => by cases h
  reads := fun h => absurd (by decide) h
  receives := fun h => absurd (by decide) h
  writes := fun h => absurd (by decide) h
  sends := fun h => absurd (by decide) h
  acked := fun h => by cases h

theorem sound_listening (hcapacity : 1 ≤ config.recvCapacity)
    (hopen : (FdAdapter.fd adapter).closed = false) :
    (listening config randomIsn adapterConfig adapter now).Sound hup := by
  refine ⟨List.Sublist.refl _, sound_initializeTCP hcapacity ?_⟩
  rw [LawfulFdAdapter.setListening_fd, LawfulFdAdapter.setConfig_fd]
  exact hopen

theorem sound_opened (hcapacity : 1 ≤ config.recvCapacity)
    (hopen : (FdAdapter.fd adapter).closed = false) :
    (opened config randomIsn adapterConfig adapter now).Sound hup := by
  have hnew : (TCPSpongeSocket.initializeTCP config randomIsn
      (FdAdapter.setConfig adapterConfig adapter)).Sound hup
      [.receiveDatagram, .readOutbound, .writeInbound, .sendSegments] := by
    refine sound_initializeTCP hcapacity ?_
    rw [LawfulFdAdapter.setConfig_fd]
    exact hopen
  refine ⟨List.Sublist.refl _, hnew.refine (?_ : TCPSpongeSocket.Refines (fun _ => True) _ _) rfl
    ⟨rfl, fun heof => heof⟩ hnew.ended (fun hend => hend) fun hnoted => by cases hnoted⟩
  exact TCPSpongeSocket.refines_of_tcp hnew.conducts .connect (fun _ => trivial) (by simp) (by simp)
    rfl (by simp)

omit [LawfulFdAdapter δ] in
/-- After `connect()` the connection is in `SYN_SENT`, as the socket expects. -/
theorem state_opened :
    (opened config randomIsn adapterConfig adapter now).socket.tcp.state = .ofState .synSent :=
  rfl

/-- `connect` or `listen_and_accept` has returned on a socket that had no connection, and the thread
is started. -/
def Started (config : TCPConfig) (randomIsn : WrappingInt32) (adapterConfig : FdAdapter.Config δ)
    (adapter : δ) (turns : List (SocketTurn δ)) (l : SocketLoop δ) : Prop :=
  ∃ now, connect none config randomIsn adapterConfig adapter now turns = .ok (true, l) ∨
    listenAndAccept none config randomIsn adapterConfig adapter now turns = .ok (true, l)

omit [LawfulFdAdapter δ] in
/-- On a socket without a connection the checks in `connect` pass. -/
theorem connect_eq (turns : List (SocketTurn δ)) :
    connect none config randomIsn adapterConfig adapter now turns =
      tcpLoop (fun s => s.tcp.state = .ofState .synSent) turns
        (opened config randomIsn adapterConfig adapter now) := by
  unfold connect
  rw [if_neg (by decide)]
  exact if_neg (not_not.mpr state_opened)

variable {turns : List (SocketTurn δ)}

/-- **A socket whose thread is started** satisfies the invariant. -/
theorem Started.sound (h : l.Started config randomIsn adapterConfig adapter turns)
    (hcapacity : 1 ≤ config.recvCapacity) (hopen : (FdAdapter.fd adapter).closed = false)
    (hhup : ∀ t ∈ turns, t.result.HungUp → hup) : l.Sound hup := by
  obtain ⟨now, hconnect | hlisten⟩ := h
  · rw [connect_eq] at hconnect
    exact ((sound_opened hcapacity hopen).tcpLoop _ hhup).1 _ _ hconnect
  · exact ((sound_listening hcapacity hopen).tcpLoop _ hhup).1 _ _ hlisten

/-- **The thread** keeps the invariant, and throws what the system makes it throw. -/
theorem Sound.tcpMain (h : l.Sound hup) (hhup : ∀ t ∈ turns, t.result.HungUp → hup) :
    (∀ done l', tcpMain now turns l = .ok (done, l') → l'.Sound hup) ∧
      ∀ e, SocketLoop.tcpMain now turns l = .error e →
        e = EventLoop.pollError ∨ e.FromSystem :=
  (h.restart now).tcpLoop _ hhup

end SocketLoop

section

variable {δ : Type} [FdAdapter δ] [LawfulFdAdapter δ]

/-- **The exceptions of a socket are those of the system.** On a socket that has a connection,
`connect` and `listen_and_accept` throw at once. On one that has none, they and the thread after
them throw nothing but what `poll` finds, or what a call of the system or its answer makes them
throw, whatever arrives and whatever the application does: no rule waits busily, the connection
takes all that was read for it, and a fresh connection is in the expected state. -/
theorem socket_errors (tcp : Option TCPConnection) (config : TCPConfig) (randomIsn : WrappingInt32)
    (adapterConfig : FdAdapter.Config δ) (adapter : δ) (hcapacity : 1 ≤ config.recvCapacity)
    (hopen : (FdAdapter.fd adapter).closed = false) (now now' : ℕ)
    (turns turns' : List (SocketTurn δ)) :
    (tcp.isSome = true →
      SocketLoop.connect tcp config randomIsn adapterConfig adapter now turns =
        .error SocketLoop.connectInitialized ∧
      SocketLoop.listenAndAccept tcp config randomIsn adapterConfig adapter now turns =
        .error SocketLoop.listenInitialized) ∧
    (tcp = none → ∀ e,
      SocketLoop.connect tcp config randomIsn adapterConfig adapter now turns = .error e ∨
      SocketLoop.listenAndAccept tcp config randomIsn adapterConfig adapter now turns = .error e ∨
      (∃ l, SocketLoop.Started config randomIsn adapterConfig adapter turns l ∧
        SocketLoop.tcpMain now' turns' l = .error e) →
      e = EventLoop.pollError ∨ e.FromSystem) := by
  have hup : ∀ ts : List (SocketTurn δ), ∀ t ∈ ts, t.result.HungUp → True :=
    fun _ _ _ _ => trivial
  constructor
  · intro hsome
    exact ⟨if_pos hsome, if_pos hsome⟩
  · rintro rfl e (hconnect | hlisten | ⟨l, hstart, hmain⟩)
    · rw [SocketLoop.connect_eq] at hconnect
      exact ((SocketLoop.sound_opened hcapacity hopen).tcpLoop _ (hup turns)).2 e hconnect
    · exact ((SocketLoop.sound_listening hcapacity hopen).tcpLoop _ (hup turns)).2 e hlisten
    · exact ((hstart.sound hcapacity hopen (hup turns)).tcpMain (hup turns')).2 e hmain

/-- The first message of a socket cannot be sent. -/
theorem socket_errors_unreachable :
    let answers : SocketAnswers TCPOverUDPSocketAdapter :=
      { incoming := (.error 0 : Except ℕ ReceivedDatagram)
        outgoing := fun _ => (.error 101 : Except ℕ ℕ) }
    let turn : SocketTurn TCPOverUDPSocketAdapter :=
      { result := .ready [({}, answers), ({}, answers), ({}, answers),
          ({ pollOut := true }, answers)]
        now := 0 }
    let config : TCPConfig := { recvCapacity := 4, sendCapacity := 4 }
    let adapterConfig : FdAdapterConfig := ⟨⟨1, 10⟩, ⟨2, 20⟩⟩
    let adapter : TCPOverUDPSocketAdapter := { config := ⟨⟨0, 0⟩, ⟨0, 0⟩⟩ }
    SocketLoop.connect none config ⟨0⟩ adapterConfig adapter 0 [turn] =
        .error (.unixError "sendmsg" 101) ∧
      (SystemException.unixError "sendmsg" 101 = EventLoop.pollError ∨
        (SystemException.unixError "sendmsg" 101).FromSystem) := by
  intro answers turn config adapterConfig adapter
  have hrun : SocketLoop.connect none config ⟨0⟩ adapterConfig adapter 0 [turn] =
      .error (.unixError "sendmsg" 101) := by
    decide +kernel
  have herrors := socket_errors none config ⟨0⟩ adapterConfig adapter (by decide) rfl 0 0 [turn] []
  exact ⟨hrun, herrors.2 rfl _ (Or.inl hrun)⟩

/-- **The thread ends when the work is done.** Unless a signal is caught, the owner asks for it, a
descriptor hangs up or the device of the adapter comes to its end, the thread ends only after the
connection has become inactive, all its segments have been sent, and the application has received
everything that the connection has delivered and was told of the end. Then there was an error, or
both streams are finished by the count of the connection: the next sequence number lies behind
everything that the application wrote and the end of it, and nothing is in flight. This is what the
sender has noted; it takes a segment without ACK for an acknowledgment, too. -/
theorem socket_exit_complete (config : TCPConfig) (randomIsn : WrappingInt32)
    (adapterConfig : FdAdapter.Config δ) (adapter : δ) (hcapacity : 1 ≤ config.recvCapacity)
    (hopen : (FdAdapter.fd adapter).closed = false) (now : ℕ) (turns turns' : List (SocketTurn δ))
    (l l' : SocketLoop δ)
    (hstart : SocketLoop.Started config randomIsn adapterConfig adapter turns l)
    (hhup : ∀ t ∈ turns ++ turns', ¬t.result.HungUp)
    (hquiet : ∀ t ∈ turns', t.abort = false ∧ t.result ≠ .interrupted)
    (hrun : SocketLoop.tcpMain now turns' l = .ok (true, l'))
    (hadapter : (FdAdapter.fd l'.socket.datagramAdapter).eof = false) :
    l'.socket.tcp.active = false ∧ l'.socket.tcp.segmentsOut = [] ∧
      l'.socket.inboundShutdown = true ∧
      l'.socket.threadData.taken.length = l'.socket.inbound.bytesWritten ∧
      (l'.socket.inbound.error = true ∨
        (l'.socket.inbound.eof = true ∧ l'.socket.outboundShutdown = true ∧
          l'.socket.tcp.sender.nextSeqno = l'.socket.threadData.given.length + 2 ∧
          l'.socket.tcp.sender.bytesInFlight = 0)) := by
  have hno : ∀ ts ∈ [turns, turns'], ∀ t ∈ ts, t.result.HungUp → False := by
    intro ts hts t ht
    refine hhup t (List.mem_append.mpr ?_)
    simp only [List.mem_cons, List.not_mem_nil, or_false] at hts
    rcases hts with rfl | rfl
    · exact Or.inl ht
    · exact Or.inr ht
  have hl := hstart.sound hcapacity hopen (hno turns (by simp))
  have hl' : l'.Sound False := (hl.tcpMain (hno turns' (by simp))).1 _ _ hrun
  have hrest := (hl.restart now).uninterested_of_done (hno turns' (by simp)) hquiet hrun
  obtain ⟨hactive, hout, hempty, hshut⟩ := hl'.socket.complete id hadapter hrest
  have hwf := hl'.socket.conducts.conducts.inbound.output
  have hsize : l'.socket.inbound.size = 0 := by simpa [ByteStream.bufferEmpty] using hempty
  have hbuffer : l'.socket.inbound.buffer = [] := hwf.buffer_eq_nil_iff.mpr hsize
  refine ⟨hactive, hout, hshut, ?_, ?_⟩
  · have hcount := hl'.socket.conducts.delivered_eq
    simp only [TCPSpongeSocket.endpoint, hbuffer, List.append_nil] at hcount
    exact hcount
  · rcases hl'.socket.conducts.conducts.concluded hactive with herr | ⟨hended, hfin, hnone⟩
    · exact Or.inl herr
    · right
      have hcarries := hl'.socket.conducts.conducts.transmits.carries
      have hfinished := (ByteStream.eof_iff.mp (hcarries.finished hfin)).1
      exact ⟨ByteStream.eof_iff.mpr ⟨hended, hsize⟩,
        hl'.socket.conducts.ended_eq.symm.trans hfinished, hcarries.nextSeqno_of_finSent hfin,
        hnone⟩

/-- The peer finishes first, then the application, and the acknowledgment of its FIN ends the
connection. -/
theorem socket_exit_complete_passive :
    let answers : TCPHeader → SocketAnswers TCPOverUDPSocketAdapter := fun header =>
      let seg : TCPSegment := { header := header }
      { incoming := (.ok ⟨⟨2, 20⟩, seg.wire (seg.checksum 0)⟩ : Except ℕ ReceivedDatagram)
        outgoing := fun _ => (.ok 20 : Except ℕ ℕ) }
    let idle : Revents × SocketAnswers TCPOverUDPSocketAdapter := ({}, answers {})
    let arrives : TCPHeader → Revents × SocketAnswers TCPOverUDPSocketAdapter := fun header =>
      ({ pollIn := true }, answers header)
    let writable : Revents × SocketAnswers TCPOverUDPSocketAdapter :=
      ({ pollOut := true }, answers {})
    let turn : List (Revents × SocketAnswers TCPOverUDPSocketAdapter) →
        SocketTurn TCPOverUDPSocketAdapter := fun found => { result := .ready found, now := 0 }
    let turns := [turn [idle, idle, idle, writable],
      turn [arrives { seqno := ⟨9⟩, syn := true, ack := true, ackno := ⟨1⟩, win := 4 }]]
    let turns' :=
      [turn [arrives { seqno := ⟨10⟩, fin := true, ack := true, ackno := ⟨1⟩, win := 4 },
        arrives {}, idle, writable],
      turn [arrives { seqno := ⟨11⟩, ack := true, ackno := ⟨2⟩, win := 4 }, writable],
      turn []]
    let config : TCPConfig := { recvCapacity := 4, sendCapacity := 4 }
    let adapterConfig : FdAdapterConfig := ⟨⟨1, 10⟩, ⟨2, 20⟩⟩
    let adapter : TCPOverUDPSocketAdapter := { config := ⟨⟨0, 0⟩, ⟨0, 0⟩⟩ }
    ∃ l l', SocketLoop.Started config ⟨0⟩ adapterConfig adapter turns l ∧
      SocketLoop.tcpMain 0 turns' l = .ok (true, l') ∧
      l'.socket.inbound.error = false ∧ l'.socket.tcp.active = false ∧
      l'.socket.inboundShutdown = true ∧
      l'.socket.tcp.sender.nextSeqno = l'.socket.threadData.given.length + 2 := by
  intro answers idle arrives writable turn turns turns' config adapterConfig adapter
  have hrun : (SocketLoop.connect none config ⟨0⟩ adapterConfig adapter 0 turns).bind
      (fun r => (SocketLoop.tcpMain 0 turns' r.2).map fun r' =>
        (r.1, r'.1, r'.2.socket.datagramAdapter.sock.eof, r'.2.socket.inbound.error)) =
      .ok (true, true, false, false) := by
    decide +kernel
  have hhup : ∀ t ∈ turns ++ turns', ¬t.result.HungUp := by
    decide
  have hquiet : ∀ t ∈ turns', t.abort = false ∧ t.result ≠ .interrupted := by
    simp [turns', turn]
  clear_value turns turns'
  obtain ⟨⟨done, l⟩, hstart, hrun⟩ := bind_eq_ok_iff.mp hrun
  obtain ⟨⟨done', l'⟩, hmain, hrun⟩ := map_eq_ok_iff.mp hrun
  obtain ⟨rfl, rfl, hopen, hclean⟩ : done = true ∧ done' = true ∧
      l'.socket.datagramAdapter.sock.eof = false ∧ l'.socket.inbound.error = false := by
    simpa using hrun
  have hstarted : SocketLoop.Started config ⟨0⟩ adapterConfig adapter turns l := ⟨0, Or.inl hstart⟩
  obtain ⟨hactive, -, hshut, -, hend⟩ := socket_exit_complete config ⟨0⟩ adapterConfig adapter
    (by decide) rfl 0 turns turns' l l' hstarted hhup hquiet hmain hopen
  refine ⟨l, l', hstarted, hmain, hclean, hactive, hshut, ?_⟩
  rcases hend with herr | ⟨-, -, hnext, -⟩
  · rw [hclean] at herr
    cases herr
  · exact hnext

/-- **The note of a fully acknowledged stream agrees with the count of the sender.** The socket
makes it when its application has finished writing and nothing is in flight. In every state in which
it is made, the input of the connection has ended, the next sequence number lies behind everything
that the application wrote and the end of it, and nothing is in flight. The segments may still wait
for the adapter, as a segment without ACK counts for an acknowledgment, too. -/
theorem socket_fully_acked (config : TCPConfig) (randomIsn : WrappingInt32)
    (adapterConfig : FdAdapter.Config δ) (adapter : δ) (hcapacity : 1 ≤ config.recvCapacity)
    (hopen : (FdAdapter.fd adapter).closed = false) (now : ℕ) (turns turns' : List (SocketTurn δ))
    (l l' : SocketLoop δ) (done : Bool)
    (hstart : SocketLoop.Started config randomIsn adapterConfig adapter turns l)
    (hrun : SocketLoop.tcpMain now turns' l = .ok (done, l'))
    (hacked : l'.socket.fullyAcked = true) :
    l'.socket.threadData.eof = true ∧ l'.socket.outboundShutdown = true ∧
      l'.socket.tcp.sender.nextSeqno = l'.socket.threadData.given.length + 2 ∧
      l'.socket.tcp.sender.bytesInFlight = 0 := by
  have hl := hstart.sound hcapacity hopen fun _ _ _ => trivial
  have hl' := (hl.tcpMain fun _ _ _ => trivial).1 _ _ hrun
  obtain ⟨heof, hfin, hnone⟩ := hl'.socket.acked hacked
  exact ⟨heof, hl'.socket.ended heof,
    hl'.socket.conducts.conducts.transmits.carries.nextSeqno_of_finSent hfin, hnone⟩

/-- A byte and the end are written, and acknowledged. -/
theorem socket_fully_acked_byte :
    let answers : TCPHeader → List UInt8 → SocketAnswers TCPOverUDPSocketAdapter :=
      fun header data =>
        let seg : TCPSegment := { header := header }
        { incoming := (.ok ⟨⟨2, 20⟩, seg.wire (seg.checksum 0)⟩ : Except ℕ ReceivedDatagram)
          outgoing := fun _ => (.ok 20 : Except ℕ ℕ)
          read := .ok data }
    let idle : Revents × SocketAnswers TCPOverUDPSocketAdapter := ({}, answers {} [])
    let ready : TCPHeader → List UInt8 → Revents × SocketAnswers TCPOverUDPSocketAdapter :=
      fun header data => ({ pollIn := true }, answers header data)
    let turn : List (Revents × SocketAnswers TCPOverUDPSocketAdapter) →
        SocketTurn TCPOverUDPSocketAdapter := fun found => { result := .ready found, now := 0 }
    let turns := [turn [idle, idle, idle, ({ pollOut := true }, answers {} [])],
      turn [ready { seqno := ⟨9⟩, syn := true, ack := true, ackno := ⟨1⟩, win := 4 } []]]
    let turns' := [turn [idle, ready {} [7]], turn [idle, ready {} []],
      turn [ready { seqno := ⟨10⟩, ack := true, ackno := ⟨3⟩, win := 4 } []]]
    let config : TCPConfig := { recvCapacity := 4, sendCapacity := 4 }
    let adapterConfig : FdAdapterConfig := ⟨⟨1, 10⟩, ⟨2, 20⟩⟩
    let adapter : TCPOverUDPSocketAdapter := { config := ⟨⟨0, 0⟩, ⟨0, 0⟩⟩ }
    ∃ l l', SocketLoop.Started config ⟨0⟩ adapterConfig adapter turns l ∧
      SocketLoop.tcpMain 0 turns' l = .ok (false, l') ∧ l'.socket.fullyAcked = true ∧
      l'.socket.tcp.sender.nextSeqno = l'.socket.threadData.given.length + 2 := by
  intro answers idle ready turn turns turns' config adapterConfig adapter
  have hrun : (SocketLoop.connect none config ⟨0⟩ adapterConfig adapter 0 turns).bind
      (fun r => (SocketLoop.tcpMain 0 turns' r.2).map fun r' =>
        (r.1, r'.1, r'.2.socket.fullyAcked)) = .ok (true, false, true) := by
    decide +kernel
  clear_value turns turns'
  obtain ⟨⟨done, l⟩, hstart, hrun⟩ := bind_eq_ok_iff.mp hrun
  obtain ⟨⟨done', l'⟩, hmain, hrun⟩ := map_eq_ok_iff.mp hrun
  obtain ⟨rfl, rfl, hacked⟩ : done = true ∧ done' = false ∧ l'.socket.fullyAcked = true := by
    simpa using hrun
  have hstarted : SocketLoop.Started config ⟨0⟩ adapterConfig adapter turns l := ⟨0, Or.inl hstart⟩
  exact ⟨l, l', hstarted, hmain, hacked, (socket_fully_acked config ⟨0⟩ adapterConfig adapter
    (by decide) rfl 0 turns turns' l l' false hstarted hmain hacked).2.2.1⟩

end

end Sponge
