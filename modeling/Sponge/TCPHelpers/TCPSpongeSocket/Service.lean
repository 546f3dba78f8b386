import Mathlib.Tactic
import Sponge.Network
import Sponge.TCPHelpers.TCPSpongeSocket

/-!
# The service of a socket

A socket is an endpoint of a network to its application: what was read from the local stream socket
is what the connection has accepted, and what was written to it, followed by what the inbound stream
holds, is what the connection has delivered. Every callback of the socket is a sequence of calls of
the connection, so that the socket refines the endpoint, and what is known of connections holds for
sockets.

On top of this the rules of the socket have an invariant of their own. It says in particular that
the callbacks throw only what the system makes them throw, that the loop exits only when all work is
done, and that the note about a fully acknowledged stream agrees with the count of the sender.

## Main definitions

* `TCPSpongeSocket.endpoint`: a socket as an endpoint
* `TCPSpongeSocket.Evolves`: a step of the socket is a sequence of calls of the connection
* `TCPSpongeSocket.Sound`: the invariant of the rules

## Main results

* `TCPSpongeSocket.evolves_call`, `TCPSpongeSocket.evolves_cancel`: the socket refines the endpoint
* `TCPSpongeSocket.safe`: the invariant of every run
-/

namespace Sponge

open Fallible (bind_eq_ok_iff bind_eq_error_iff ite_throw_eq_ok_iff ite_throw_eq_error_iff)

namespace Endpoint

variable {e : Endpoint} {op : ConnectionOp} {Arrives : TCPSegment → Prop}

/-- An endpoint whose connection conducts itself well. -/
structure Conducts (e : Endpoint) : Prop where
  conducts : e.conn.Conducts e.accepted
  ended_eq : e.conn.sender.stream.inputEnded = e.ended
  delivered_eq : e.delivered.length = e.conn.receiver.streamOut.nwritten

/-- What a socket does with its connection: it writes only before the end of the input, and passes
on what has arrived. -/
def Admits (Arrives : TCPSegment → Prop) (e : Endpoint) : ConnectionOp → Prop
  | .write _ => e.ended = false
  | .segmentReceived _ seg => Arrives seg
  | _ => True

theorem Conducts.step (h : e.Conducts) (hop : e.Admits Arrives op) : (e.step op).Conducts where
  conducts := by
    refine h.conducts.step op ?_
    rintro data rfl
    exact h.ended_eq.trans hop
  ended_eq := inputEnded_step h.conducts.toSound h.ended_eq op
  delivered_eq := by
    change (e.delivered ++ op.written _ _).length = _
    rw [List.length_append, h.delivered_eq]
    exact ((e.conn.step_receiver op).nwritten_eq h.conducts.inbound).symm

/-- All segments are taken from the queue. -/
theorem exec_popSegment (e : Endpoint) :
    Run.exec Endpoint.step e (List.replicate e.conn.segmentsOut.length .popSegment) =
      { e with
        conn := { e.conn with segmentsOut := [] }
        wire := e.wire ++ e.conn.segmentsOut } := by
  obtain ⟨conn, accepted, ended, delivered, wire⟩ := e
  dsimp only
  generalize hout : conn.segmentsOut = out
  induction out generalizing conn wire with
  | nil =>
    rw [List.length_nil, List.replicate_zero, Run.exec_nil, List.append_nil, ← hout]
  | cons seg out ih =>
    rw [List.length_cons, List.replicate_succ, Run.exec_cons]
    have hstep : Endpoint.step ⟨conn, accepted, ended, delivered, wire⟩ .popSegment =
        ⟨{ conn with segmentsOut := out }, accepted, ended, delivered, wire ++ [seg]⟩ := by
      simp [Endpoint.step, TCPConnection.step, TCPConnection.acceptedBy, ConnectionOp.written,
        Endpoint.sentBy, hout]
    rw [hstep, ih { conn with segmentsOut := out } _ rfl]
    simp

theorem always_popSegment (e : Endpoint) (n : ℕ) :
    Run.Always Endpoint.step (Admits Arrives) e (List.replicate n .popSegment) := by
  induction n generalizing e with
  | zero => trivial
  | succ n ih => exact ⟨trivial, ih _⟩

end Endpoint

namespace TCPSpongeSocket

variable {δ : Type} {s s' : TCPSpongeSocket δ}

/-- **A socket as an endpoint**, whose segments on the wire are given. -/
def endpoint (s : TCPSpongeSocket δ) (wire : List TCPSegment) : Endpoint where
  conn := s.tcp
  accepted := s.threadData.given
  ended := s.outboundShutdown
  delivered := s.threadData.taken ++ s.inbound.buffer
  wire := wire

/-- A call of the connection, with what belongs to it, is a step of the endpoint. -/
theorem endpoint_step {op : ConnectionOp} (hwf : s.tcp.receiver.reassembler.WellFormed)
    (hread : ∀ len, op ≠ .read len) (hpop : op ≠ .popSegment) (htcp : s'.tcp = s.tcp.step op)
    (hgiven : s'.threadData.given = s.threadData.given ++ s.tcp.acceptedBy op)
    (hended : s'.outboundShutdown = (s.outboundShutdown || decide (op = .endInputStream)))
    (htaken : s'.threadData.taken = s.threadData.taken) (wire : List TCPSegment) :
    s'.endpoint wire = (s.endpoint wire).step op := by
  have hbuffer := (s.tcp.step_receiver op).buffer_eq hwf hread
  have hsent : (s.endpoint wire).sentBy op = [] := by
    cases op with
    | popSegment => exact absurd rfl hpop
    | _ => rfl
  rw [Endpoint.step, hsent, List.append_nil]
  simp only [endpoint, inbound, htcp, hgiven, hended, htaken, hbuffer, List.append_assoc]

/-- A read of the inbound stream whose result is written to the application. -/
theorem endpoint_read {n : ℕ} (hle : n ≤ s.inbound.size) (htcp : s'.tcp = s.tcp.step (.read n))
    (hgiven : s'.threadData.given = s.threadData.given)
    (hended : s'.outboundShutdown = s.outboundShutdown)
    (htaken : s'.threadData.taken = s.threadData.taken ++ s.inbound.buffer.take n)
    (wire : List TCPSegment) : s'.endpoint wire = (s.endpoint wire).step (.read n) := by
  have hbuffer : (s.tcp.step (.read n)).receiver.streamOut.buffer = s.inbound.buffer.drop n := by
    change (s.inbound.popOutput n).buffer = _
    rw [ByteStream.popOutput_buffer, Nat.min_eq_right hle]
  simp only [endpoint, Endpoint.step, inbound, htcp, hgiven, hended, htaken, hbuffer,
    TCPConnection.acceptedBy, ConnectionOp.written, Endpoint.sentBy, List.append_nil,
    List.append_assoc, List.take_append_drop, reduceCtorEq, decide_false, Bool.or_false]

/-! ## The callbacks -/

variable [FdAdapter δ] {answers : SocketAnswers δ}

/-- The connection after a datagram was read that held a segment or not. -/
def receivedFrom (s : TCPSpongeSocket δ) (stale : TCPSegment) (seg : Option TCPSegment) :
    TCPConnection :=
  Run.exec TCPConnection.step s.tcp (seg.toList.map (.segmentReceived stale))

theorem receiveDatagram_eq_ok (hok : receiveDatagram.callback answers s = .ok s') :
    ∃ seg adapter, FdAdapter.read answers.incoming s.datagramAdapter = .ok (seg, adapter) ∧
      s' = { s with
        datagramAdapter := adapter
        tcp := s.receivedFrom answers.stale seg
        fullyAcked := s.fullyAcked || (s.threadData.eof &&
          (s.receivedFrom answers.stale seg).sender.bytesInFlight == 0) } := by
  obtain ⟨⟨seg, adapter⟩, hread, hrest⟩ := bind_eq_ok_iff.mp hok
  refine ⟨seg, adapter, hread, ?_⟩
  have hnote : ∀ c : TCPConnection,
      (if s.threadData.eof && c.sender.bytesInFlight == 0 && !s.fullyAcked then
        pure { s with datagramAdapter := adapter, tcp := c, fullyAcked := true }
      else pure { s with datagramAdapter := adapter, tcp := c } :
        Except SystemException (TCPSpongeSocket δ)) = .ok s' →
      s' = { s with
        datagramAdapter := adapter
        tcp := c
        fullyAcked := s.fullyAcked || (s.threadData.eof && c.sender.bytesInFlight == 0) } := by
    intro c hc
    split_ifs at hc with hdone
    · cases hc
      rw [Bool.and_eq_true] at hdone
      rw [hdone.1, Bool.or_true]
    · cases hc
      rw [Bool.and_eq_true, Bool.not_eq_true'] at hdone
      cases hacked : s.fullyAcked with
      | true => rw [Bool.true_or]
      | false =>
        rw [Bool.false_or, Bool.eq_false_iff.mpr fun hnow => hdone ⟨hnow, hacked⟩]
  cases seg with
  | none => exact hnote s.tcp hrest
  | some seg => exact hnote (s.tcp.segmentReceived answers.stale seg) hrest

theorem readOutbound_eq_ok (hok : readOutbound.callback answers s = .ok s') :
    ∃ fd data, s.threadData.read s.remainingOutboundCapacity answers.read = .ok (fd, data) ∧
      ((fd.eof = false ∧ s' = { s with threadData := fd, tcp := (s.tcp.write data).1 }) ∨
        (fd.eof = true ∧
          s' = { s with threadData := fd, tcp := (s.tcp.write data).1 }.endOutbound)) := by
  obtain ⟨⟨fd, data⟩, hread, hrest⟩ := bind_eq_ok_iff.mp hok
  refine ⟨fd, data, hread, ?_⟩
  obtain ⟨-, hrest⟩ := ite_throw_eq_ok_iff.mp hrest
  split_ifs at hrest with heof
  · cases hrest
    exact Or.inr ⟨heof, rfl⟩
  · cases hrest
    exact Or.inl ⟨by simpa using heof, rfl⟩

theorem writeInbound_eq_ok (hok : writeInbound.callback answers s = .ok s') :
    ∃ n t, n ≤ (s.inbound.peekOutput (min 65536 s.inbound.bufferSize)).length ∧
      t = { s with
        threadData :=
          s.threadData.wrote ((s.inbound.peekOutput (min 65536 s.inbound.bufferSize)).take n)
        tcp := s.tcp.step (.read n) } ∧
      (s' = t ∨ ((t.inbound.eof = true ∨ t.inbound.error = true) ∧ s' = { t with
        threadData := t.threadData.registerWrite
        inboundShutdown := true })) := by
  obtain ⟨⟨fd, n⟩, hwrite, hrest⟩ := bind_eq_ok_iff.mp hok
  obtain ⟨-, hle, -, rfl⟩ := FileDescriptor.write_bytes_eq_ok_iff.mp hwrite
  refine ⟨n, _, hle, rfl, ?_⟩
  dsimp only at hrest
  split_ifs at hrest with hend
  · obtain ⟨fd, hshutdown, heq⟩ := bind_eq_ok_iff.mp hrest
    obtain ⟨-, -, hfd⟩ := bind_eq_ok_iff.mp hshutdown
    cases hfd
    cases heq
    exact Or.inr ⟨(Bool.or_eq_true _ _).mp hend, rfl⟩
  · cases hrest
    exact Or.inl rfl

/-- No more is written than was looked at, and that is the front of the stream. -/
theorem take_peekOutput (stream : ByteStream) (hwf : stream.WellFormed) {len n : ℕ}
    (hle : n ≤ (stream.peekOutput len).length) :
    n ≤ stream.size ∧ (stream.peekOutput len).take n = stream.buffer.take n := by
  have hsize := hwf.size_eq
  simp only [ByteStream.peekOutput, List.length_take] at hle
  refine ⟨by omega, ?_⟩
  rw [ByteStream.peekOutput, List.take_take]
  congr 1
  omega

theorem sendSegments_eq_ok (hok : sendSegments.callback answers s = .ok s') :
    ∃ adapter, sendAll s.tcp.segmentsOut answers.outgoing s.datagramAdapter = .ok adapter ∧
      s' = { s with datagramAdapter := adapter, tcp := { s.tcp with segmentsOut := [] } } := by
  obtain ⟨adapter, hsend, heq⟩ := bind_eq_ok_iff.mp hok
  cases heq
  exact ⟨adapter, hsend, rfl⟩

/-! ## The socket refines the endpoint -/

variable [LawfulFdAdapter δ] {Arrives : TCPSegment → Prop}

/-- **A step of the socket is a sequence of calls of the connection**: whatever segments are on the
wire, the endpoint makes these steps, and the adapter emits what they put there. -/
def Refines (Arrives : TCPSegment → Prop) (s s' : TCPSpongeSocket δ) : Prop :=
  ∀ wire, ∃ ops wire',
    Run.Always Endpoint.step (Endpoint.Admits Arrives) (s.endpoint wire) ops ∧
      s'.endpoint wire' = Run.exec Endpoint.step (s.endpoint wire) ops ∧
      (LawfulFdAdapter.Emits s.datagramAdapter wire →
        LawfulFdAdapter.Emits s'.datagramAdapter wire')

theorem Refines.trans {s'' : TCPSpongeSocket δ} (h : Refines Arrives s s')
    (h' : Refines Arrives s' s'') : Refines Arrives s s'' := by
  intro wire
  obtain ⟨ops, wire', hops, heq, hemits⟩ := h wire
  obtain ⟨ops', wire'', hops', heq', hemits'⟩ := h' wire'
  rw [heq] at hops' heq'
  exact ⟨ops ++ ops', wire'', Run.always_append.mpr ⟨hops, hops'⟩,
    heq'.trans (Run.exec_append _ _ _ _).symm, fun he => hemits' (hemits he)⟩

/-- A single call that leaves the wire alone. -/
theorem refines_of_step (op : ConnectionOp)
    (hadmits : ∀ wire, (s.endpoint wire).Admits Arrives op)
    (hstep : ∀ wire, s'.endpoint wire = (s.endpoint wire).step op)
    (hemits : ∀ wire, LawfulFdAdapter.Emits s.datagramAdapter wire →
      LawfulFdAdapter.Emits s'.datagramAdapter wire) : Refines Arrives s s' := by
  intro wire
  exact ⟨[op], wire, ⟨hadmits wire, trivial⟩, hstep wire, hemits wire⟩

/-- **A step of the socket**: it refines steps of the endpoint, and the application is told of the
end of its input only when the inbound stream is at its end or has an error. -/
structure Evolves (Arrives : TCPSegment → Prop) (s s' : TCPSpongeSocket δ) : Prop where
  refines : Refines Arrives s s'
  shutdown : s'.inboundShutdown = true →
    s.inboundShutdown = true ∨ s'.inbound.eof = true ∨ s'.inbound.error = true

/-- A socket that conducts itself well does so after the step. -/
theorem Refines.conducts (h : Refines Arrives s s') (hs : (s.endpoint []).Conducts) :
    (s'.endpoint []).Conducts := by
  obtain ⟨ops, wire', hops, heq, -⟩ := h []
  have hconducts : (s'.endpoint wire').Conducts := by
    rw [heq]
    exact Run.invariant (fun _ _ he hop => he.step hop) hs hops
  exact ⟨hconducts.conducts, hconducts.ended_eq, hconducts.delivered_eq⟩

/-- A stream that is acknowledged by the count of its sender stays so. -/
theorem Refines.fullyAcked (h : Refines Arrives s s') (hs : (s.endpoint []).Conducts)
    (hdone : s.tcp.sender.FullyAcked) : s'.tcp.sender.FullyAcked := by
  obtain ⟨ops, wire', hops, heq, -⟩ := h []
  have hboth : (s'.endpoint wire').Conducts ∧ (s'.endpoint wire').conn.sender.FullyAcked := by
    rw [heq]
    exact Run.invariant (I := fun e => e.Conducts ∧ e.conn.sender.FullyAcked)
      (fun e op he hop => ⟨he.1.step hop, he.1.conducts.toSound.step_fullyAcked he.2 op⟩)
      ⟨hs, hdone⟩ hops
  exact hboth.2

/-! ### The rules -/

/-- The rule that reads from the application is called only before the end. -/
def Armed : SocketRule → TCPSpongeSocket δ → Prop
  | .readOutbound, s => s.outboundShutdown = false
  | _, _ => True

/-- A segment that is read is one that arrives, up to what adapters have set. -/
def Fair (Arrives : TCPSegment → Prop) : SocketRule → SocketAnswers δ → TCPSpongeSocket δ → Prop
  | .receiveDatagram, answers, s => ∀ seg adapter,
      FdAdapter.read answers.incoming s.datagramAdapter = .ok (some seg, adapter) →
      ∃ seg₀, Arrives seg₀ ∧ seg₀.ArrivesAs seg
  | _, _, _ => True

/-- The segments go to the adapter in their order. -/
theorem sendAll_eq_ok {segs : List TCPSegment} {outgoing : ℕ → FdAdapter.Outgoing δ} {a a' : δ}
    (hfits : ∀ seg ∈ segs, seg.Fits) (hok : sendAll segs outgoing a = .ok a') :
    (∀ wire, LawfulFdAdapter.Emits a wire → LawfulFdAdapter.Emits a' (wire ++ segs)) ∧
      (FdAdapter.fd a').closed = (FdAdapter.fd a).closed ∧
      (FdAdapter.fd a').eof = (FdAdapter.fd a).eof := by
  induction segs generalizing outgoing a with
  | nil =>
    cases hok
    exact ⟨fun wire h => by rwa [List.append_nil], rfl, rfl⟩
  | cons seg segs ih =>
    obtain ⟨hseg, hsegs⟩ := List.forall_mem_cons.mp hfits
    obtain ⟨a₁, hwrite, hrest⟩ := bind_eq_ok_iff.mp hok
    obtain ⟨hemits, hclosed, heof⟩ := ih hsegs hrest
    obtain ⟨hclosed₁, heof₁⟩ := LawfulFdAdapter.write_fd hwrite
    refine ⟨fun wire h => ?_, hclosed.trans hclosed₁, heof.trans heof₁⟩
    have hnext := hemits _ (LawfulFdAdapter.emits_write h hseg hwrite)
    rwa [List.append_assoc] at hnext

theorem fromSystem_of_sendAll {segs : List TCPSegment} {outgoing : ℕ → FdAdapter.Outgoing δ} {a : δ}
    {e : SystemException} (hfits : ∀ seg ∈ segs, seg.Fits)
    (h : sendAll segs outgoing a = .error e) : e.FromSystem := by
  induction segs generalizing outgoing a with
  | nil => cases h
  | cons seg segs ih =>
    obtain ⟨hseg, hsegs⟩ := List.forall_mem_cons.mp hfits
    rcases bind_eq_error_iff.mp h with hwrite | ⟨a₁, -, hrest⟩
    · exact LawfulFdAdapter.write_error hseg hwrite
    · exact ih hsegs hrest

section Refines

variable (hs : (s.endpoint []).Conducts)

include hs

theorem refines_receiveDatagram (hfair : Fair Arrives .receiveDatagram answers s)
    (hok : receiveDatagram.callback answers s = .ok s') : Refines Arrives s s' := by
  obtain ⟨seg, adapter, hread, rfl⟩ := receiveDatagram_eq_ok hok
  have hemits : ∀ wire, LawfulFdAdapter.Emits s.datagramAdapter wire →
      LawfulFdAdapter.Emits adapter wire := fun wire h => LawfulFdAdapter.emits_read h hread
  cases seg with
  | none => exact fun wire => ⟨[], wire, trivial, rfl, hemits wire⟩
  | some seg =>
    -- the segment arrives as another one, which makes no difference to the connection
    obtain ⟨seg₀, harrives, sport, dport, cksum, rfl⟩ := hfair seg adapter hread
    refine refines_of_step (.segmentReceived answers.stale seg₀) (fun _ => harrives)
      (endpoint_step hs.conducts.inbound ?_ ?_ rfl ?_ ?_ rfl) hemits
    all_goals simp [TCPConnection.acceptedBy]

theorem refines_endOutbound : Refines Arrives s s.endOutbound := by
  refine refines_of_step .endInputStream (fun _ => trivial)
    (endpoint_step hs.conducts.inbound ?_ ?_ rfl ?_ ?_ rfl) (fun _ h => h)
  all_goals simp [endOutbound, TCPConnection.acceptedBy]

theorem refines_readOutbound (harmed : Armed .readOutbound s)
    (hok : readOutbound.callback answers s = .ok s') : Refines Arrives s s' := by
  obtain ⟨fd, data, hread, hcases⟩ := readOutbound_eq_ok hok
  obtain ⟨-, hle, rfl⟩ := FileDescriptor.read_eq_ok_iff.mp hread
  have hall : (s.tcp.write data).2 = data.length := by
    rw [TCPConnection.write_snd, ByteStream.write_snd]
    exact Nat.min_eq_left (hle.trans (min_le_right _ _))
  have hwrite : ∀ t : TCPSpongeSocket δ, t.tcp = (s.tcp.write data).1 →
      t.threadData.given = s.threadData.given ++ data →
      t.threadData.taken = s.threadData.taken → t.outboundShutdown = s.outboundShutdown →
      t.datagramAdapter = s.datagramAdapter → Refines Arrives s t := by
    intro t htcp hgiven htaken hended hadapter
    refine refines_of_step (.write data) (fun _ => harmed)
      (endpoint_step hs.conducts.inbound (by simp) (by simp) htcp ?_ (by simp [hended]) htaken)
      (fun _ h => hadapter ▸ h)
    rw [hgiven, TCPConnection.acceptedBy, hall, List.take_length]
  rcases hcases with ⟨-, rfl⟩ | ⟨-, rfl⟩
  · exact hwrite _ rfl rfl rfl rfl rfl
  · have hfirst := hwrite { s with
      threadData := { s.threadData with
        eof := s.threadData.eof ||
          (decide (0 < s.remainingOutboundCapacity) && decide (data.length = 0))
        readCount := s.threadData.readCount + 1
        given := s.threadData.given ++ data }
      tcp := (s.tcp.write data).1 } rfl rfl rfl rfl rfl
    exact hfirst.trans (refines_endOutbound (hfirst.conducts hs))

theorem refines_writeInbound (hok : writeInbound.callback answers s = .ok s') :
    Refines Arrives s s' := by
  obtain ⟨n, t, hle, rfl, hcases⟩ := writeInbound_eq_ok hok
  obtain ⟨hle, htake⟩ := take_peekOutput s.inbound hs.conducts.inbound.output hle
  rw [htake] at hcases
  rcases hcases with rfl | ⟨-, rfl⟩
  · exact refines_of_step (.read n) (fun _ => trivial)
      (fun wire => by refine endpoint_read hle ?_ ?_ ?_ ?_ wire <;> rfl) (fun _ h => h)
  · exact refines_of_step (.read n) (fun _ => trivial)
      (fun wire => by refine endpoint_read hle ?_ ?_ ?_ ?_ wire <;> rfl) (fun _ h => h)

theorem refines_sendSegments (hok : sendSegments.callback answers s = .ok s') :
    Refines Arrives s s' := by
  obtain ⟨adapter, hsend, rfl⟩ := sendSegments_eq_ok hok
  intro wire
  exact ⟨List.replicate s.tcp.segmentsOut.length .popSegment, wire ++ s.tcp.segmentsOut,
    Endpoint.always_popSegment _ _, (Endpoint.exec_popSegment (s.endpoint wire)).symm,
    (sendAll_eq_ok hs.conducts.out hsend).1 wire⟩

/-- The connection is told of the time, or asked to connect. -/
theorem refines_of_tcp (op : ConnectionOp) (hadmits : ∀ wire, (s.endpoint wire).Admits Arrives op)
    (hread : ∀ len, op ≠ .read len) (hpop : op ≠ .popSegment) (haccepted : s.tcp.acceptedBy op = [])
    (hended : op ≠ .endInputStream) : Refines Arrives s { s with tcp := s.tcp.step op } := by
  refine refines_of_step op hadmits
    (endpoint_step hs.conducts.inbound hread hpop rfl ?_ ?_ rfl) (fun _ h => h)
  · rw [haccepted, List.append_nil]
  · rw [decide_eq_false hended, Bool.or_false]

/-- **The callbacks refine the endpoint.** -/
theorem evolves_call {i : SocketRule} (harmed : Armed i s) (hfair : Fair Arrives i answers s)
    (hok : (rule i).callback answers s = .ok s') : Evolves Arrives s s' := by
  cases i with
  | receiveDatagram =>
    refine ⟨refines_receiveDatagram hs hfair hok, ?_⟩
    obtain ⟨seg, adapter, -, rfl⟩ := receiveDatagram_eq_ok hok
    exact Or.inl
  | readOutbound =>
    refine ⟨refines_readOutbound hs harmed hok, ?_⟩
    obtain ⟨fd, data, -, ⟨-, rfl⟩ | ⟨-, rfl⟩⟩ := readOutbound_eq_ok hok
    · exact Or.inl
    · exact Or.inl
  | writeInbound =>
    refine ⟨refines_writeInbound hs hok, ?_⟩
    obtain ⟨n, t, -, rfl, rfl | ⟨hend, rfl⟩⟩ := writeInbound_eq_ok hok
    · exact Or.inl
    · exact fun _ => Or.inr hend
  | sendSegments =>
    refine ⟨refines_sendSegments hs hok, ?_⟩
    obtain ⟨adapter, -, rfl⟩ := sendSegments_eq_ok hok
    exact Or.inl

/-- A rule that is cancelled ends the input, or nothing happens. -/
theorem evolves_cancel (i : SocketRule) : Evolves Arrives s ((rule i).cancel s) := by
  cases i with
  | readOutbound => exact ⟨refines_endOutbound hs, Or.inl⟩
  | _ => exact ⟨fun wire => ⟨[], wire, trivial, rfl, fun h => h⟩, Or.inl⟩

end Refines

/-! ## The invariant of the rules -/

/-- **The invariant of the rules.** The end of what the application writes was passed on to the
connection once it was seen, or once the rule that reads it is gone. The other rules go only if
their descriptor hangs up, or is at its end. And if the stream was noted to be acknowledged, then
it is, by the count of the sender. -/
structure Sound (hup : Prop) (rules : List SocketRule) (s : TCPSpongeSocket δ) : Prop where
  conducts : (s.endpoint []).Conducts
  data_open : s.threadData.closed = false
  adapter_open : (FdAdapter.fd s.datagramAdapter).closed = false
  ended : s.threadData.eof = true → s.outboundShutdown = true
  reads : .readOutbound ∉ rules → s.outboundShutdown = true
  receives : .receiveDatagram ∉ rules → (FdAdapter.fd s.datagramAdapter).eof = true ∨ hup
  writes : .writeInbound ∉ rules → hup
  sends : .sendSegments ∉ rules → hup
  acked : s.fullyAcked = true → s.threadData.eof = true ∧ s.tcp.sender.FullyAcked

variable {hup : Prop} {rules : List SocketRule}

/-- A step keeps the invariant if it keeps the descriptors and is honest about the end. -/
theorem Sound.refine (h : Sound hup rules s) (href : Refines Arrives s s')
    (hdata : s'.threadData.closed = s.threadData.closed)
    (hadapter : (FdAdapter.fd s'.datagramAdapter).closed = (FdAdapter.fd s.datagramAdapter).closed ∧
      ((FdAdapter.fd s.datagramAdapter).eof = true →
        (FdAdapter.fd s'.datagramAdapter).eof = true))
    (hended : s'.threadData.eof = true → s'.outboundShutdown = true)
    (hmono : s.outboundShutdown = true → s'.outboundShutdown = true)
    (hacked : s'.fullyAcked = true → s'.threadData.eof = true ∧
      (s.fullyAcked = true ∨ s'.tcp.sender.bytesInFlight = 0)) : Sound hup rules s' := by
  have hconducts := href.conducts h.conducts
  refine ⟨hconducts, hdata.trans h.data_open, hadapter.1.trans h.adapter_open, hended,
    fun hgone => hmono (h.reads hgone), fun hgone => (h.receives hgone).imp_left hadapter.2,
    h.writes, h.sends, fun hnoted => ?_⟩
  obtain ⟨heof, hbefore | hnow⟩ := hacked hnoted
  · exact ⟨heof, href.fullyAcked h.conducts (h.acked hbefore).2⟩
  · have hsound := hconducts.conducts.toSound
    refine ⟨heof, hsound.settled.fullyAcked hsound.bookkeeping ?_ hnow⟩
    exact hconducts.ended_eq.trans (hended heof)

/-- **A callback keeps the invariant.** -/
theorem Sound.call (h : Sound hup rules s) {i : SocketRule} (harmed : Armed i s)
    (hfair : Fair Arrives i answers s) (hok : (rule i).callback answers s = .ok s') :
    Sound hup rules s' := by
  have hevolves := evolves_call h.conducts harmed hfair hok
  have hkept : s.fullyAcked = true → s.threadData.eof = true ∧
      (s.fullyAcked = true ∨ s'.tcp.sender.bytesInFlight = 0) :=
    fun hnoted => ⟨(h.acked hnoted).1, Or.inl hnoted⟩
  cases i with
  | receiveDatagram =>
    obtain ⟨seg, adapter, hread, rfl⟩ := receiveDatagram_eq_ok hok
    obtain ⟨-, hclosed, heof⟩ := LawfulFdAdapter.read_fd hread
    refine h.refine hevolves.refines rfl ⟨hclosed, heof⟩ h.ended (fun hend => hend) ?_
    intro hnoted
    rcases (Bool.or_eq_true _ _).mp hnoted with hbefore | hnow
    · exact hkept hbefore
    · obtain ⟨heof, hnone⟩ := (Bool.and_eq_true _ _).mp hnow
      exact ⟨heof, Or.inr (beq_iff_eq.mp hnone)⟩
  | readOutbound =>
    obtain ⟨fd, data, hread, hcases⟩ := readOutbound_eq_ok hok
    obtain ⟨-, -, rfl⟩ := FileDescriptor.read_eq_ok_iff.mp hread
    have heof : s.fullyAcked = true → (s.threadData.eof ||
        (decide (0 < s.remainingOutboundCapacity) && decide (data.length = 0))) = true ∧
        (s.fullyAcked = true ∨ s'.tcp.sender.bytesInFlight = 0) := fun hnoted =>
      ⟨by rw [(h.acked hnoted).1, Bool.true_or], Or.inl hnoted⟩
    rcases hcases with ⟨hopen, rfl⟩ | ⟨hend, rfl⟩
    · refine h.refine hevolves.refines rfl ⟨rfl, fun heof => heof⟩ ?_ (fun hend => hend) heof
      exact fun heof => absurd (hopen.symm.trans heof) Bool.false_ne_true
    · exact h.refine hevolves.refines rfl ⟨rfl, fun heof => heof⟩ (fun _ => rfl) (fun _ => rfl)
        heof
  | writeInbound =>
    obtain ⟨n, t, -, rfl, rfl | ⟨-, rfl⟩⟩ := writeInbound_eq_ok hok
    · exact h.refine hevolves.refines rfl ⟨rfl, fun heof => heof⟩ h.ended (fun hend => hend) hkept
    · exact h.refine hevolves.refines rfl ⟨rfl, fun heof => heof⟩ h.ended (fun hend => hend) hkept
  | sendSegments =>
    obtain ⟨adapter, hsend, rfl⟩ := sendSegments_eq_ok hok
    obtain ⟨-, hclosed, heof⟩ := sendAll_eq_ok h.conducts.conducts.out hsend
    exact h.refine hevolves.refines rfl ⟨hclosed, fun hbefore => heof.trans hbefore⟩ h.ended
      (fun hend => hend) hkept

/-- **A rule is cancelled.** -/
theorem Sound.cancel (h : Sound hup rules s) {i : SocketRule}
    (hreason : ((rule i : Rule (TCPSpongeSocket δ) (SocketAnswers δ)).direction = .pollIn ∧
        ((rule i).fd s).eof = true) ∨
      ((rule i).fd s).closed = true ∨ hup) :
    Sound hup (rules.erase i) ((rule i).cancel s) := by
  have hkept : ∀ j, j ≠ i → (j ∉ rules.erase i → j ∉ rules) := fun j hj hgone hmem =>
    hgone ((List.mem_erase_of_ne hj).mpr hmem)
  cases i with
  | receiveDatagram =>
    refine ⟨h.conducts, h.data_open, h.adapter_open, h.ended,
      fun hgone => h.reads (hkept _ (by decide) hgone), fun _ => ?_,
      fun hgone => h.writes (hkept _ (by decide) hgone),
      fun hgone => h.sends (hkept _ (by decide) hgone), h.acked⟩
    rcases hreason with ⟨-, heof⟩ | hclosed | hhup
    · exact Or.inl heof
    · exact absurd (h.adapter_open.symm.trans hclosed) Bool.false_ne_true
    · exact Or.inr hhup
  | readOutbound =>
    have hend : Sound hup rules s.endOutbound :=
      h.refine (refines_endOutbound h.conducts : Refines (fun _ => True) s s.endOutbound) rfl
        ⟨rfl, fun heof => heof⟩ (fun _ => rfl) (fun _ => rfl)
        (fun hnoted => ⟨(h.acked hnoted).1, Or.inl hnoted⟩)
    exact ⟨hend.conducts, hend.data_open, hend.adapter_open, hend.ended, fun _ => rfl,
      fun hgone => hend.receives (hkept _ (by decide) hgone),
      fun hgone => hend.writes (hkept _ (by decide) hgone),
      fun hgone => hend.sends (hkept _ (by decide) hgone), hend.acked⟩
  | writeInbound =>
    refine ⟨h.conducts, h.data_open, h.adapter_open, h.ended,
      fun hgone => h.reads (hkept _ (by decide) hgone),
      fun hgone => h.receives (hkept _ (by decide) hgone), fun _ => ?_,
      fun hgone => h.sends (hkept _ (by decide) hgone), h.acked⟩
    -- it is not a rule that reads, and the descriptor is open
    rcases hreason with ⟨hdir, -⟩ | hclosed | hhup
    · cases hdir
    · exact absurd (h.data_open.symm.trans hclosed) Bool.false_ne_true
    · exact hhup
  | sendSegments =>
    refine ⟨h.conducts, h.data_open, h.adapter_open, h.ended,
      fun hgone => h.reads (hkept _ (by decide) hgone),
      fun hgone => h.receives (hkept _ (by decide) hgone),
      fun hgone => h.writes (hkept _ (by decide) hgone), fun _ => ?_, h.acked⟩
    rcases hreason with ⟨hdir, -⟩ | hclosed | hhup
    · cases hdir
    · exact absurd (h.adapter_open.symm.trans hclosed) Bool.false_ne_true
    · exact hhup

omit [LawfulFdAdapter δ] in
/-- No callback but its own ends the stream that the rule reads. -/
theorem armed_of_call {i j : SocketRule} (hne : j ≠ i) (hj : Armed j s)
    (hok : (rule i).callback answers s = .ok s') : Armed j s' := by
  cases j with
  | readOutbound =>
    cases i with
    | receiveDatagram =>
      obtain ⟨seg, adapter, -, rfl⟩ := receiveDatagram_eq_ok hok
      exact hj
    | readOutbound => exact absurd rfl hne
    | writeInbound =>
      obtain ⟨n, t, -, rfl, rfl | ⟨-, rfl⟩⟩ := writeInbound_eq_ok hok
      · exact hj
      · exact hj
    | sendSegments =>
      obtain ⟨adapter, -, rfl⟩ := sendSegments_eq_ok hok
      exact hj
  | _ => trivial

/-- **The rules keep the invariant**, and whatever else the steps of a socket keep. -/
theorem safe (hup : Prop) {Fairly : SocketRule → SocketAnswers δ → TCPSpongeSocket δ → Prop}
    {J : TCPSpongeSocket δ → Prop}
    (hfair : ∀ i answers s, J s → Fairly i answers s → Fair Arrives i answers s)
    (hJ : ∀ s s', J s → Evolves Arrives s s' → J s') :
    EventLoop.Safe rule Fairly (fun rules s => Sound hup rules s ∧ J s) Armed hup where
  arm := by
    intro i rules s _ _ _ hinterest
    cases i with
    | readOutbound =>
      simp only [rule, readOutbound, Bool.and_eq_true, Bool.not_eq_true'] at hinterest
      exact hinterest.1.2
    | _ => trivial
  cancel := fun _ _ h hreason =>
    ⟨h.1.cancel hreason, hJ _ _ h.2 (evolves_cancel h.1.conducts _)⟩
  cancel_armed := by
    intro i j rules s _ hne _ hj
    cases i with
    | readOutbound => cases j <;> first | exact absurd rfl hne | trivial
    | _ => exact hj
  call := fun _ h harmed hanswer hok =>
    ⟨h.1.call harmed (hfair _ _ _ h.2 hanswer) hok,
      hJ _ _ h.2 (evolves_call h.1.conducts harmed (hfair _ _ _ h.2 hanswer) hok)⟩
  call_armed := fun _ hne _ _ _ hj hok => armed_of_call hne hj hok

/-! ## Exceptions -/

/-- Every callback uses its descriptor, or has nothing left to do. -/
theorem serves (i : SocketRule) :
    EventLoop.Serves (rule i : Rule (TCPSpongeSocket δ) (SocketAnswers δ)) := by
  intro answers s s' hok
  cases i with
  | receiveDatagram =>
    left
    obtain ⟨seg, adapter, hread, rfl⟩ := receiveDatagram_eq_ok hok
    change (FdAdapter.fd s.datagramAdapter).readCount ≠ (FdAdapter.fd adapter).readCount
    rw [(LawfulFdAdapter.read_fd hread).1]
    exact FileDescriptor.ne_add_one _
  | readOutbound =>
    left
    obtain ⟨fd, data, hread, hcases⟩ := readOutbound_eq_ok hok
    obtain ⟨-, -, rfl⟩ := FileDescriptor.read_eq_ok_iff.mp hread
    rcases hcases with ⟨-, rfl⟩ | ⟨-, rfl⟩
    · exact FileDescriptor.ne_add_one s.threadData.readCount
    · exact FileDescriptor.ne_add_one s.threadData.readCount
  | writeInbound =>
    left
    obtain ⟨n, t, -, rfl, rfl | ⟨-, rfl⟩⟩ := writeInbound_eq_ok hok
    · exact FileDescriptor.ne_add_one s.threadData.writeCount
    · -- the shutdown counts as well
      exact FileDescriptor.ne_add_two s.threadData.writeCount
  | sendSegments =>
    -- a lossy adapter may have written nothing, but the queue is empty
    right
    obtain ⟨adapter, -, rfl⟩ := sendSegments_eq_ok hok
    rfl

/-- **The callbacks throw what the system makes them throw.** -/
theorem Sound.callback_error (h : Sound hup rules s) {i : SocketRule} {e : SystemException}
    (herr : (rule i).callback answers s = .error e) : e.FromSystem := by
  cases i with
  | receiveDatagram =>
    rcases bind_eq_error_iff.mp herr with hread | ⟨⟨seg, adapter⟩, -, hrest⟩
    · exact LawfulFdAdapter.read_error hread
    · cases seg <;> (dsimp only at hrest; split_ifs at hrest <;> cases hrest)
  | readOutbound =>
    rcases bind_eq_error_iff.mp herr with hread | ⟨⟨fd, data⟩, hread, hrest⟩
    · exact FileDescriptor.fromSystem_of_read hread
    · -- what was read fits, so the connection takes all of it
      obtain ⟨-, hle, -⟩ := FileDescriptor.read_eq_ok_iff.mp hread
      have hall : (s.tcp.write data).2 = data.length := by
        rw [TCPConnection.write_snd, ByteStream.write_snd]
        exact Nat.min_eq_left (hle.trans (min_le_right _ _))
      rcases ite_throw_eq_error_iff.mp hrest with ⟨hless, -⟩ | ⟨-, hrest⟩
      · exact absurd hall hless
      · split_ifs at hrest <;> cases hrest
  | writeInbound =>
    rcases bind_eq_error_iff.mp herr with hwrite | ⟨r, -, hrest⟩
    · exact FileDescriptor.fromSystem_of_write hwrite
    · dsimp only at hrest
      split_ifs at hrest
      · rcases bind_eq_error_iff.mp hrest with hshutdown | ⟨fd, -, hpure⟩
        · exact FileDescriptor.fromSystem_of_shutdownWrite hshutdown
        · cases hpure
      · cases hrest
  | sendSegments =>
    rcases bind_eq_error_iff.mp herr with hsend | ⟨adapter, -, hpure⟩
    · exact fromSystem_of_sendAll h.conducts.conducts.out hsend
    · cases hpure

theorem fromSystem_of_throws {J : TCPSpongeSocket δ → Prop} {e : SystemException}
    (h : EventLoop.Throws rule (fun rules s => Sound hup rules s ∧ J s) Armed e) :
    e.FromSystem := by
  obtain ⟨i, rules, s, answers, hI, -, hcall⟩ := h
  exact hI.1.callback_error (EventLoop.callback_error_of_serves (serves i) hcall)

/-! ## Exit -/

omit [LawfulFdAdapter δ] in
/-- Cancelling a rule does not arouse the interest of one before it: what has ended stays so. -/
theorem interest_stable :
    [SocketRule.receiveDatagram, .readOutbound, .writeInbound, .sendSegments].Pairwise fun i j =>
      ∀ t : TCPSpongeSocket δ, (rule i).interest t = false →
        (rule i).interest ((rule j).cancel t) = false := by
  simp only [List.pairwise_cons, List.mem_cons, List.not_mem_nil, or_false, forall_eq_or_imp,
    forall_eq, false_imp_iff, implies_true, and_true, List.Pairwise.nil]
  exact ⟨⟨fun t h => TCPConnection.step_inactive h .endInputStream, fun _ h => h, fun _ h => h⟩,
    ⟨fun _ h => h, fun _ h => h⟩, fun _ h => h⟩

omit [LawfulFdAdapter δ] in
/-- **A socket that has come to rest is done**: the connection is inactive, everything has been
sent and passed on, and the application was told of the end. -/
theorem Sound.complete (h : Sound hup rules s) (hhup : ¬hup)
    (hopen : (FdAdapter.fd s.datagramAdapter).eof = false)
    (hrest : ∀ i ∈ rules, (rule i).interest s = false) :
    s.tcp.active = false ∧ s.tcp.segmentsOut = [] ∧ s.inbound.bufferEmpty = true ∧
      s.inboundShutdown = true := by
  have hreceive : SocketRule.receiveDatagram ∈ rules := by
    by_contra hgone
    rcases h.receives hgone with heof | hhup'
    · rw [hopen] at heof
      cases heof
    · exact hhup hhup'
  have hactive : s.tcp.active = false := hrest _ hreceive
  have hsend := hrest _ (not_not.mp fun hgone => hhup (h.sends hgone))
  have hwrite := hrest _ (not_not.mp fun hgone => hhup (h.writes hgone))
  simp only [rule, sendSegments, Bool.not_eq_false', List.isEmpty_iff] at hsend
  simp only [rule, writeInbound, Bool.or_eq_false_iff, Bool.not_eq_false'] at hwrite
  obtain ⟨hempty, hshut⟩ := hwrite
  refine ⟨hactive, hsend, hempty, ?_⟩
  -- the inbound stream has an error, or it has ended and is empty
  have hend : (s.inbound.eof || s.inbound.error) = true := by
    rcases h.conducts.conducts.concluded hactive with herr | ⟨hended, -⟩
    · rw [Bool.or_eq_true]
      exact Or.inr herr
    · rw [Bool.or_eq_true]
      exact Or.inl (ByteStream.eof_iff.mpr ⟨hended, by simpa [ByteStream.bufferEmpty] using hempty⟩)
  simpa [hend] using hshut

end TCPSpongeSocket

end Sponge
