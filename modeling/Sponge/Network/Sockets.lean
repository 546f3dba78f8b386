import Mathlib.Tactic
import Sponge.Network
import Sponge.TCPHelpers.TCPSpongeSocket.Lifetime

/-!
# Two sockets and a network

Two sockets are joined by a network that may lose, duplicate, delay and reorder datagrams, but
neither forges nor alters those that a socket takes for its peer's. Each socket runs on its own
thread: it makes a turn of its event loop whenever it likes. A turn is one step here, since it reads
at most one datagram, and that before it sends any; what the peer sends in the meantime may as well
have been sent before.

Seen as endpoints, the sockets make the steps of two endpoints on a network of segments: what a
socket reads from its adapter is a segment that the other endpoint has put on the wire, with the
ports and the checksum of an adapter. So the applications get what that network guarantees. The
bytes that one application receives are a prefix of those the other has written, and all of them
once it sees the end of its input without an error.

## Main definitions

* `SocketEvent`, `SocketLoop.step`: what happens at a socket
* `SocketPair`, `SocketPair.step`: two sockets
* `SocketPair.Genuine`: no datagram is forged
* `SocketLoop.Conveys`: what one application writes, the other receives

## Main results

* `SocketLoop.started_run`: the functions of a socket are sequences of these steps
* `socket_pair_stream_safety`: the streams arrive unaltered
-/

namespace Sponge

open Fallible (bind_eq_ok_iff map_eq_ok_iff run_cons_eq_ok_iff run_append_eq_ok_iff)

/-- What happens at a socket: a turn of its loop, or the thread enters its own loop and reads the
clock. -/
inductive SocketEvent (δ : Type) [FdAdapter δ] where
  | turn (t : SocketTurn δ)
  | main (now : ℕ)

/-- Two sockets. -/
structure SocketPair (δ : Type) where
  a : SocketLoop δ
  b : SocketLoop δ
  deriving DecidableEq, Repr

/-- An event at one of the sockets. -/
inductive PairEvent (δ : Type) [FdAdapter δ] where
  | atA (e : SocketEvent δ)
  | atB (e : SocketEvent δ)

section

variable {δ : Type} [FdAdapter δ]

def SocketLoop.step (l : SocketLoop δ) : SocketEvent δ → Except SystemException (SocketLoop δ)
  | .turn t => (SocketLoop.turn t l).map Prod.snd
  | .main now => return { l with baseTime := now }

def SocketPair.step (p : SocketPair δ) : PairEvent δ → Except SystemException (SocketPair δ)
  | .atA e => (p.a.step e).map fun a => { p with a := a }
  | .atB e => (p.b.step e).map fun b => { p with b := b }

variable [LawfulFdAdapter δ]

/-- A datagram that is read is one of the peer, if it is taken for one. -/
def SocketRule.Genuine (peer : δ) (i : SocketRule) (answers : SocketAnswers δ)
    (s : TCPSpongeSocket δ) : Prop :=
  i = .receiveDatagram → LawfulFdAdapter.Genuine s.datagramAdapter peer answers.incoming

/-- The same for the datagrams of an event. -/
def SocketLoop.Genuine (peer l : SocketLoop δ) : SocketEvent δ → Prop
  | .turn t => EventLoop.FairTurn TCPSpongeSocket.rule
      (SocketRule.Genuine peer.socket.datagramAdapter) t.result l.rules l.socket
  | .main _ => True

/-- **No datagram is forged.** -/
def SocketPair.Genuine (p : SocketPair δ) : PairEvent δ → Prop
  | .atA e => p.b.Genuine p.a e
  | .atB e => p.a.Genuine p.b e

section Decidable

variable [∀ (a peer : δ) answer, Decidable (LawfulFdAdapter.Genuine a peer answer)]

instance (peer : δ) (i : SocketRule) (answers : SocketAnswers δ) (s : TCPSpongeSocket δ) :
    Decidable (SocketRule.Genuine peer i answers s) :=
  inferInstanceAs (Decidable (_ → _))

instance (peer l : SocketLoop δ) : ∀ e, Decidable (SocketLoop.Genuine peer l e)
  | .turn t => inferInstanceAs (Decidable (EventLoop.FairTurn TCPSpongeSocket.rule
      (SocketRule.Genuine peer.socket.datagramAdapter) t.result l.rules l.socket))
  | .main _ => isTrue trivial

instance (p : SocketPair δ) : ∀ e, Decidable (p.Genuine e)
  | .atA e => inferInstanceAs (Decidable (p.b.Genuine p.a e))
  | .atB e => inferInstanceAs (Decidable (p.a.Genuine p.b e))

end Decidable

end

/-! ## Endpoints -/

namespace Endpoint

variable {e peer : Endpoint} {ops : List ConnectionOp}

theorem accepted_exec (e : Endpoint) (ops : List ConnectionOp) :
    e.accepted <+: (Run.exec Endpoint.step e ops).accepted :=
  Run.preserved (I := fun e' : Endpoint => e.accepted <+: e'.accepted)
    (fun _ _ h => h.trans (List.prefix_append _ _)) (List.prefix_refl _) ops

/-- What a socket does with its connection is allowed on the network of the endpoints, as long as
the stream is short enough. -/
theorem always_allowed (hops : Run.Always Endpoint.step (Admits (· ∈ peer.wire)) e ops)
    (htotal : (Run.exec Endpoint.step e ops).accepted.length < 2 ^ 31 - 2) :
    Run.Always Endpoint.step (fun e op => e.Allowed peer op) e ops := by
  induction ops generalizing e with
  | nil => trivial
  | cons op ops ih =>
    obtain ⟨hop, hops⟩ := hops
    refine ⟨?_, ih hops htotal⟩
    cases op with
    | write data =>
      refine ⟨hop, ?_⟩
      have hle := (accepted_exec (e.step (.write data)) ops).length_le
      rw [Run.exec_cons] at htotal
      have hlength : (e.step (.write data)).accepted.length =
          e.accepted.length + (e.conn.write data).2 := by
        change (e.accepted ++ data.take (e.conn.write data).2).length = _
        rw [List.length_append, List.length_take, TCPConnection.write_snd,
          ByteStream.write_snd]
        omega
      omega
    | segmentReceived stale seg => exact hop
    | _ => trivial

/-- Nothing that was received, read or ended is taken back. -/
theorem progress_exec {Arrives : TCPSegment → Prop} (h : e.Conducts)
    (hops : Run.Always Endpoint.step (Admits Arrives) e ops) :
    TCPReceiver.Progress e.conn.receiver (Run.exec Endpoint.step e ops).conn.receiver := by
  refine (Run.invariant (I := fun e' => e'.Conducts ∧
      TCPReceiver.Progress e.conn.receiver e'.conn.receiver) ?_ ⟨h, .refl _⟩ hops).2
  intro e' op h' hop
  exact ⟨h'.1.step hop,
    h'.2.trans ((e'.conn.step_receiver op).progress h'.1.conducts.inbound).1⟩

end Endpoint

/-- A stream that has been read to its end stays so, since all of it has arrived. -/
theorem Link.eof_of_progress {x y y' : Endpoint} (h : Link x y) (h' : Link x y')
    (hprogress : TCPReceiver.Progress y.conn.receiver y'.conn.receiver)
    (heof : y.conn.receiver.streamOut.eof = true) : y'.conn.receiver.streamOut.eof = true := by
  obtain ⟨hended, hsize⟩ := ByteStream.eof_iff.mp heof
  have hended' := hprogress.inputEnded hended
  refine ByteStream.eof_iff.mpr ⟨hended', ?_⟩
  have hall : y.conn.receiver.streamOut.nwritten = x.accepted.length :=
    (h.tracks.inputEnded_iff.mp hended).2
  have hall' : y'.conn.receiver.streamOut.nwritten = x.accepted.length :=
    (h'.tracks.inputEnded_iff.mp hended').2
  have hcount : y.conn.receiver.streamOut.nwritten = y.conn.receiver.streamOut.nread +
      y.conn.receiver.streamOut.size := h.tracks.assembles.wellFormed.output.nwritten_eq
  have hcount' : y'.conn.receiver.streamOut.nwritten = y'.conn.receiver.streamOut.nread +
      y'.conn.receiver.streamOut.size := h'.tracks.assembles.wellFormed.output.nwritten_eq
  have hread := hprogress.nread_le
  omega

/-! ## A socket and its peer -/

section

variable {δ : Type} [FdAdapter δ] [LawfulFdAdapter δ]

namespace TCPSpongeSocket

variable {s s' : TCPSpongeSocket δ} {peer : Endpoint} {Arrives : TCPSegment → Prop}

theorem Refines.given_prefix (h : Refines Arrives s s') :
    s.threadData.given <+: s'.threadData.given := by
  obtain ⟨ops, wire', -, heq, -⟩ := h []
  have hpre := (s.endpoint []).accepted_exec ops
  rwa [← heq] at hpre

/-- **A socket on the network of its peer**: as endpoints they are linked both ways, and the
application is told of the end of its input when the stream is at its end, or after an error. -/
structure LinkedTo (peer : Endpoint) (wire : List TCPSegment) (s : TCPSpongeSocket δ) : Prop where
  emits : LawfulFdAdapter.Emits s.datagramAdapter wire
  outbound : Link (s.endpoint wire) peer
  inbound : Link peer (s.endpoint wire)
  told : s.inboundShutdown = true → s.inbound.eof = true ∨ s.inbound.error = true

/-- The same as long as its application has not written too much. -/
structure Joined (peer : Endpoint) (s : TCPSpongeSocket δ) : Prop where
  conducts : (s.endpoint []).Conducts
  linked : s.threadData.given.length < 2 ^ 31 - 2 → ∃ wire, s.LinkedTo peer wire

/-- **A step of the socket** keeps this, if only segments of the peer arrive. -/
theorem Joined.evolve (h : s.Joined peer) (hevolves : Evolves (· ∈ peer.wire) s s') :
    s'.Joined peer where
  conducts := hevolves.refines.conducts h.conducts
  linked := by
    intro hshort
    have hle := hevolves.refines.given_prefix.length_le
    obtain ⟨wire, hlinked⟩ := h.linked (by omega)
    obtain ⟨ops, wire', hops, heq, hemits⟩ := hevolves.refines wire
    have hlinks : Link (s'.endpoint wire') peer ∧ Link peer (s'.endpoint wire') := by
      have hallowed := Endpoint.always_allowed hops (by rw [← heq]; exact hshort)
      rw [heq]
      exact Run.invariant (I := fun e => Link e peer ∧ Link peer e)
        (fun e op he hop => ⟨he.1.sender_step hop, he.2.receiver_step hop⟩)
        ⟨hlinked.outbound, hlinked.inbound⟩ hallowed
    have hprogress : TCPReceiver.Progress s.tcp.receiver s'.tcp.receiver := by
      have hconducts : (s.endpoint wire).Conducts :=
        ⟨h.conducts.conducts, h.conducts.ended_eq, h.conducts.delivered_eq⟩
      have hprogress := Endpoint.progress_exec hconducts hops
      rwa [← heq] at hprogress
    refine ⟨wire', hemits hlinked.emits, hlinks.1, hlinks.2, fun hshut => ?_⟩
    rcases hevolves.shutdown hshut with hbefore | hnow
    · rcases hlinked.told hbefore with heof | herr
      · exact Or.inl (hlinked.inbound.eof_of_progress hlinks.2 hprogress heof)
      · exact Or.inr (hprogress.error herr)
    · exact hnow

end TCPSpongeSocket

namespace SocketLoop

variable {l l' peer : SocketLoop δ} {e : SocketEvent δ}

/-- **An event at a socket** keeps its invariant and what it has read; and it stays joined to its
peer if no datagram is forged. -/
theorem Sound.step (h : l.Sound True) (hgenuine : peer.Genuine l e) (hok : l.step e = .ok l') :
    l'.Sound True ∧ l.socket.threadData.given <+: l'.socket.threadData.given ∧
      ∀ wire, LawfulFdAdapter.Emits peer.socket.datagramAdapter wire →
        l.socket.Joined (peer.socket.endpoint wire) →
        l'.socket.Joined (peer.socket.endpoint wire) := by
  cases e with
  | main now =>
    cases hok
    exact ⟨h.restart now, List.prefix_refl _, fun _ _ hjoined => hjoined⟩
  | turn t =>
    obtain ⟨⟨done, l₁⟩, hturn, rfl⟩ := map_eq_ok_iff.mp hok
    have hany := (h.turn_any (J := fun s => l.socket.threadData.given <+: s.threadData.given)
      (t := t) (List.prefix_refl _)
      (fun _ _ hs hevolves => hs.trans hevolves.refines.given_prefix) fun _ => trivial).1 _ _ hturn
    refine ⟨hany.1, hany.2, fun wire hemits hjoined => ?_⟩
    refine ((h.turn (SocketRule.Genuine peer.socket.datagramAdapter) hjoined ?_
      (fun _ _ hs hevolves => hs.evolve hevolves) hgenuine fun _ => trivial).1 _ _ hturn).2
    -- what is read from the adapter is on the wire
    intro i answers s _ hanswer
    cases i with
    | receiveDatagram =>
      intro seg adapter hread
      exact LawfulFdAdapter.read_genuine hemits (hanswer rfl) hread
    | _ => trivial

/-! ## Two sockets -/

/-- **Two sockets on a network.** -/
structure Paired (x y : SocketLoop δ) : Prop where
  left : x.Sound True
  right : y.Sound True
  linked : x.socket.threadData.given.length < 2 ^ 31 - 2 →
    y.socket.threadData.given.length < 2 ^ 31 - 2 →
    ∃ wireX wireY, x.socket.LinkedTo (y.socket.endpoint wireY) wireX ∧
      y.socket.LinkedTo (x.socket.endpoint wireX) wireY

theorem Paired.symm {x y : SocketLoop δ} (h : Paired x y) : Paired y x := by
  refine ⟨h.right, h.left, fun hy hx => ?_⟩
  obtain ⟨wireX, wireY, hX, hY⟩ := h.linked hx hy
  exact ⟨wireY, wireX, hY, hX⟩

/-- **An event at one of two sockets.** -/
theorem Paired.step {x x' y : SocketLoop δ} (h : Paired x y) (hgenuine : y.Genuine x e)
    (hok : x.step e = .ok x') : Paired x' y := by
  obtain ⟨hsound, hgiven, hjoins⟩ := h.left.step hgenuine hok
  refine ⟨hsound, h.right, fun hx hy => ?_⟩
  obtain ⟨wireX, wireY, hX, hY⟩ := h.linked (hgiven.length_le.trans_lt hx) hy
  have hjoined : x'.socket.Joined (y.socket.endpoint wireY) :=
    hjoins wireY hY.emits ⟨h.left.socket.conducts, fun _ => ⟨wireX, hX⟩⟩
  obtain ⟨wireX', hX'⟩ := hjoined.linked hx
  exact ⟨wireX', wireY, hX', hY.emits, hX'.inbound, hX'.outbound, hY.told⟩

/-- **What the application of `x` writes, that of `y` receives**: a prefix of it, and all of it with
its end once the end was passed on without an error. -/
def Conveys (x y : SocketLoop δ) : Prop :=
  y.socket.threadData.taken <+: x.socket.threadData.given ∧
    (y.socket.inboundShutdown = true → y.socket.inbound.error = false →
      y.socket.threadData.taken = x.socket.threadData.given ∧ x.socket.outboundShutdown = true)

theorem Paired.conveys {x y : SocketLoop δ} (h : Paired x y)
    (hx : x.socket.threadData.given.length < 2 ^ 31 - 2)
    (hy : y.socket.threadData.given.length < 2 ^ 31 - 2) : x.Conveys y := by
  obtain ⟨wireX, wireY, hX, hY⟩ := h.linked hx hy
  obtain ⟨hpre, hall⟩ := hX.outbound.delivers
  refine ⟨(List.prefix_append _ _).trans hpre, fun hshut herr => ?_⟩
  rcases hY.told hshut with heof | herr'
  · obtain ⟨hended, hsize⟩ := ByteStream.eof_iff.mp heof
    have hbuffer : y.socket.inbound.buffer = [] :=
      h.right.socket.conducts.conducts.inbound.output.buffer_eq_nil_iff.mpr hsize
    obtain ⟨hdelivered, hend⟩ := hall hended
    refine ⟨?_, hend⟩
    change y.socket.threadData.taken ++ y.socket.inbound.buffer = _ at hdelivered
    rwa [hbuffer, List.append_nil] at hdelivered
  · rw [herr] at herr'
    cases herr'

/-! ## From the start -/

/-- A socket at the start of `connect` or `listen_and_accept`. -/
def Fresh (config : TCPConfig) (randomIsn : WrappingInt32) (adapterConfig : FdAdapter.Config δ)
    (adapter : δ) (l : SocketLoop δ) : Prop :=
  ∃ now, l = opened config randomIsn adapterConfig adapter now ∨
    l = listening config randomIsn adapterConfig adapter now

section Fresh

variable {config : TCPConfig} {randomIsn : WrappingInt32} {adapterConfig : FdAdapter.Config δ}
  {adapter : δ}

theorem Fresh.sound (h : l.Fresh config randomIsn adapterConfig adapter)
    (hcapacity : 1 ≤ config.recvCapacity) (hopen : (FdAdapter.fd adapter).closed = false) :
    l.Sound True := by
  obtain ⟨now, rfl | rfl⟩ := h
  · exact sound_opened hcapacity hopen
  · exact sound_listening hcapacity hopen

theorem Fresh.emits (h : l.Fresh config randomIsn adapterConfig adapter)
    (hemits : LawfulFdAdapter.Emits adapter []) :
    LawfulFdAdapter.Emits l.socket.datagramAdapter [] := by
  obtain ⟨now, rfl | rfl⟩ := h
  · exact LawfulFdAdapter.emits_setConfig hemits adapterConfig
  · exact LawfulFdAdapter.emits_setListening (LawfulFdAdapter.emits_setConfig hemits _) true

omit [LawfulFdAdapter δ] in
/-- It is a fresh endpoint, which may have been asked to connect. -/
theorem Fresh.endpoint (h : l.Fresh config randomIsn adapterConfig adapter) :
    l.socket.endpoint [] = Endpoint.new config randomIsn ∨
      l.socket.endpoint [] = (Endpoint.new config randomIsn).step .connect := by
  obtain ⟨now, rfl | rfl⟩ := h
  · exact Or.inr rfl
  · exact Or.inl rfl

omit [LawfulFdAdapter δ] in
theorem Fresh.inboundShutdown (h : l.Fresh config randomIsn adapterConfig adapter) :
    l.socket.inboundShutdown = false := by
  obtain ⟨now, rfl | rfl⟩ := h
  · rfl
  · rfl

end Fresh

omit [LawfulFdAdapter δ] in
/-- **A run of the loop** is a sequence of turns. -/
theorem tcpLoop_run {condition : TCPSpongeSocket δ → Bool} {turns : List (SocketTurn δ)}
    {done : Bool} (h : tcpLoop condition turns l = .ok (done, l')) :
    ∃ events, Fallible.run SocketLoop.step l events = .ok l' := by
  induction turns generalizing l with
  | nil =>
    cases h
    exact ⟨[], rfl⟩
  | cons t turns ih =>
    unfold tcpLoop at h
    split_ifs at h with hstop
    · cases h
      exact ⟨[], rfl⟩
    · obtain ⟨⟨last, l₁⟩, hturn, hrest⟩ := bind_eq_ok_iff.mp h
      have hstep : l.step (.turn t) = .ok l₁ := map_eq_ok_iff.mpr ⟨_, hturn, rfl⟩
      dsimp only at hrest
      split_ifs at hrest
      · cases hrest
        exact ⟨[.turn t], run_cons_eq_ok_iff.mpr ⟨_, hstep, rfl⟩⟩
      · obtain ⟨events, hevents⟩ := ih hrest
        exact ⟨.turn t :: events, run_cons_eq_ok_iff.mpr ⟨l₁, hstep, hevents⟩⟩

omit [LawfulFdAdapter δ] in
/-- **The functions of a socket are sequences of these events**: from a fresh socket they lead to
what the thread has reached. -/
theorem started_run {config : TCPConfig} {randomIsn : WrappingInt32}
    {adapterConfig : FdAdapter.Config δ} {adapter : δ} {turns turns' : List (SocketTurn δ)}
    {now : ℕ} {done : Bool} (h : l.Started config randomIsn adapterConfig adapter turns)
    (hmain : tcpMain now turns' l = .ok (done, l')) :
    ∃ fresh events, Fresh config randomIsn adapterConfig adapter fresh ∧
      Fallible.run SocketLoop.step fresh events = .ok l' := by
  have hrest : ∃ events, Fallible.run SocketLoop.step l (.main now :: events) = .ok l' := by
    obtain ⟨events, hevents⟩ := tcpLoop_run hmain
    exact ⟨events, run_cons_eq_ok_iff.mpr ⟨_, rfl, hevents⟩⟩
  obtain ⟨events', hrest⟩ := hrest
  have hstart : ∃ fresh events, Fresh config randomIsn adapterConfig adapter fresh ∧
      Fallible.run SocketLoop.step fresh events = .ok l := by
    obtain ⟨now', hconnect | hlisten⟩ := h
    · rw [connect_eq] at hconnect
      obtain ⟨events, hevents⟩ := tcpLoop_run hconnect
      exact ⟨_, events, ⟨now', Or.inl rfl⟩, hevents⟩
    · obtain ⟨events, hevents⟩ := tcpLoop_run hlisten
      exact ⟨_, events, ⟨now', Or.inr rfl⟩, hevents⟩
  obtain ⟨fresh, events, hfresh, hevents⟩ := hstart
  exact ⟨fresh, events ++ .main now :: events', hfresh,
    run_append_eq_ok_iff.mpr ⟨l, hevents, hrest⟩⟩

/-- Two fresh sockets whose adapters have sent nothing are on a network. -/
theorem paired_fresh {x y : SocketLoop δ} {cfgX cfgY : TCPConfig} {isnX isnY : WrappingInt32}
    {adapterCfgX adapterCfgY : FdAdapter.Config δ} {adapterX adapterY : δ}
    (hx : x.Fresh cfgX isnX adapterCfgX adapterX) (hy : y.Fresh cfgY isnY adapterCfgY adapterY)
    (hsoundX : x.Sound True) (hsoundY : y.Sound True) (hcapX : 1 ≤ cfgX.recvCapacity)
    (hcapY : 1 ≤ cfgY.recvCapacity)
    (hemitsX : LawfulFdAdapter.Emits adapterX []) (hemitsY : LawfulFdAdapter.Emits adapterY []) :
    Paired x y := by
  refine ⟨hsoundX, hsoundY, fun _ _ => ⟨[], [], ?_⟩⟩
  have hnew := Network.linked_new cfgX cfgY isnX isnY hcapX hcapY
  -- either of them may have been asked to connect
  have hleft : ∀ e, e = Endpoint.new cfgX isnX ∨ e = (Endpoint.new cfgX isnX).step .connect →
      Link e (Endpoint.new cfgY isnY) ∧ Link (Endpoint.new cfgY isnY) e := by
    rintro e (rfl | rfl)
    · exact hnew
    · exact ⟨hnew.1.sender_step trivial, hnew.2.receiver_step trivial⟩
  have hboth : Link (x.socket.endpoint []) (y.socket.endpoint []) ∧
      Link (y.socket.endpoint []) (x.socket.endpoint []) := by
    obtain ⟨hxy, hyx⟩ := hleft _ hx.endpoint
    rcases hy.endpoint with heq | heq
    · rw [heq]
      exact ⟨hxy, hyx⟩
    · rw [heq]
      exact ⟨hxy.receiver_step trivial, hyx.sender_step trivial⟩
  have htold : ∀ {z : SocketLoop δ}, z.socket.inboundShutdown = false →
      z.socket.inboundShutdown = true →
      z.socket.inbound.eof = true ∨ z.socket.inbound.error = true := by
    intro z hfalse htrue
    rw [hfalse] at htrue
    cases htrue
  exact ⟨⟨hx.emits hemitsX, hboth.1, hboth.2, htold hx.inboundShutdown⟩,
    ⟨hy.emits hemitsY, hboth.2, hboth.1, htold hy.inboundShutdown⟩⟩

end SocketLoop

/-- **Two sockets on a network stay so**, whatever happens that forges no datagram. -/
theorem SocketPair.paired_run {cfgA cfgB : TCPConfig} {isnA isnB : WrappingInt32}
    {adapterCfgA adapterCfgB : FdAdapter.Config δ} {adapterA adapterB : δ}
    (hcapA : 1 ≤ cfgA.recvCapacity) (hcapB : 1 ≤ cfgB.recvCapacity)
    (hopenA : (FdAdapter.fd adapterA).closed = false)
    (hopenB : (FdAdapter.fd adapterB).closed = false)
    (hsentA : LawfulFdAdapter.Emits adapterA []) (hsentB : LawfulFdAdapter.Emits adapterB [])
    {start p : SocketPair δ} (hA : start.a.Fresh cfgA isnA adapterCfgA adapterA)
    (hB : start.b.Fresh cfgB isnB adapterCfgB adapterB) {events : List (PairEvent δ)}
    (hgenuine : Fallible.Always SocketPair.step SocketPair.Genuine start events)
    (hrun : Fallible.run SocketPair.step start events = .ok p) : p.a.Paired p.b := by
  have hstart : start.a.Paired start.b :=
    SocketLoop.paired_fresh hA hB (hA.sound hcapA hopenA) (hB.sound hcapB hopenB) hcapA hcapB hsentA
      hsentB
  refine Fallible.invariant (I := fun q : SocketPair δ => q.a.Paired q.b) ?_ hstart hgenuine hrun
  intro q e q' hq he hstep
  cases e with
  | atA e =>
    obtain ⟨a, ha, rfl⟩ := map_eq_ok_iff.mp hstep
    exact hq.step he ha
  | atB e =>
    obtain ⟨b, hb, rfl⟩ := map_eq_ok_iff.mp hstep
    exact (hq.symm.step he hb).symm

/-- **The streams of two sockets arrive unaltered.** Two applications talk through two sockets,
each of which has started to connect or to listen, over adapters that have sent nothing before.
Whatever the network loses, duplicates, delays and reorders, whatever the applications and the
clocks do, and in whatever order the threads make their turns: in every state reached, the bytes
that the system has taken for one application are a prefix of the bytes read from the other; and
once the end of the input was passed on to it without an error, they are all of those bytes, and
the other application has finished writing. -/
theorem socket_pair_stream_safety (cfgA cfgB : TCPConfig) (isnA isnB : WrappingInt32)
    (adapterCfgA adapterCfgB : FdAdapter.Config δ) (adapterA adapterB : δ)
    (hcapA : 1 ≤ cfgA.recvCapacity) (hcapB : 1 ≤ cfgB.recvCapacity)
    (hopenA : (FdAdapter.fd adapterA).closed = false)
    (hopenB : (FdAdapter.fd adapterB).closed = false)
    (hsentA : LawfulFdAdapter.Emits adapterA []) (hsentB : LawfulFdAdapter.Emits adapterB [])
    (start p : SocketPair δ) (hA : start.a.Fresh cfgA isnA adapterCfgA adapterA)
    (hB : start.b.Fresh cfgB isnB adapterCfgB adapterB) (events : List (PairEvent δ))
    (hgenuine : Fallible.Always SocketPair.step SocketPair.Genuine start events)
    (hrun : Fallible.run SocketPair.step start events = .ok p)
    (hshortA : p.a.socket.threadData.given.length < 2 ^ 31 - 2)
    (hshortB : p.b.socket.threadData.given.length < 2 ^ 31 - 2) :
    p.a.Conveys p.b ∧ p.b.Conveys p.a := by
  have hpaired : p.a.Paired p.b :=
    SocketPair.paired_run hcapA hcapB hopenA hopenB hsentA hsentB hA hB hgenuine hrun
  exact ⟨hpaired.conveys hshortA hshortB, hpaired.symm.conveys hshortB hshortA⟩

/-! ### A run

One application connects and writes a byte, the other listens. The byte arrives twice. -/

namespace ByteRun

def cfg : TCPConfig := { recvCapacity := 4, sendCapacity := 4 }

def cfgA : FdAdapterConfig := ⟨⟨1, 10⟩, ⟨2, 20⟩⟩

def cfgB : FdAdapterConfig := ⟨⟨2, 20⟩, ⟨0, 0⟩⟩

def adapter : TCPOverUDPSocketAdapter := { config := ⟨⟨0, 0⟩, ⟨0, 0⟩⟩ }

def start : SocketPair TCPOverUDPSocketAdapter where
  a := SocketLoop.opened cfg ⟨0⟩ cfgA adapter 0
  b := SocketLoop.listening cfg ⟨9⟩ cfgB adapter 0

def wire (header : TCPHeader) (payload : List UInt8) : List UInt8 :=
  let seg : TCPSegment := { header := header, payload := payload }
  seg.wire (seg.checksum 0)

def found (revents : Revents) (source : Address) (datagram : List UInt8) :
    Revents × SocketAnswers TCPOverUDPSocketAdapter :=
  (revents,
    { incoming := (.ok ⟨source, datagram⟩ : Except ℕ ReceivedDatagram)
      outgoing := fun i => (.ok (20 + i) : Except ℕ ℕ)
      read := .ok [7]
      writev := fun _ => .ok 1 })

def turn (revents : List (Revents × SocketAnswers TCPOverUDPSocketAdapter)) :
    SocketEvent TCPOverUDPSocketAdapter :=
  .turn { result := .ready revents, now := 0 }

def events : List (PairEvent TCPOverUDPSocketAdapter) :=
  let idle := found {} ⟨0, 0⟩ []
  let readable := found { pollIn := true } ⟨0, 0⟩ []
  let writable := found { pollOut := true } ⟨0, 0⟩ []
  let syn := wire { sport := 10, dport := 20, seqno := ⟨0⟩, syn := true } []
  let synAck := wire
    { sport := 20, dport := 10, seqno := ⟨9⟩, syn := true, ack := true, ackno := ⟨1⟩, win := 4 } []
  let byte := wire
    { sport := 10, dport := 20, seqno := ⟨1⟩, ack := true, ackno := ⟨10⟩, win := 4 } [7]
  [.atA (turn [idle, idle, idle, writable]),
    .atB (turn [found { pollIn := true } ⟨1, 10⟩ syn]),
    .atB (turn [idle, idle, idle, writable]),
    .atA (turn [found { pollIn := true } ⟨2, 20⟩ synAck]),
    .atA (.main 0),
    .atA (turn [idle, readable, idle, writable]),
    .atB (turn [found { pollIn := true } ⟨1, 10⟩ byte]),
    .atB (turn [found { pollIn := true } ⟨1, 10⟩ byte, idle, writable])]

theorem genuine_events : Fallible.Always SocketPair.step SocketPair.Genuine start events := by
  decide +kernel

theorem run_events :
    (Fallible.run SocketPair.step start events).map (fun p =>
      (p.a.socket.threadData, p.b.socket.threadData)) =
      .ok ({ given := [7], readCount := 1 }, { taken := [7], writeCount := 1 }) := by
  decide +kernel

theorem emits_adapter : LawfulFdAdapter.Emits adapter [] := fun d hd => by cases hd

end ByteRun

theorem socket_pair_stream_safety_byte :
    ∃ p, Fallible.run SocketPair.step ByteRun.start ByteRun.events = .ok p ∧
      p.b.socket.threadData.taken = [7] ∧ p.a.Conveys p.b ∧ p.b.Conveys p.a := by
  obtain ⟨p, hrun, hdata⟩ := map_eq_ok_iff.mp ByteRun.run_events
  obtain ⟨hdataA, hdataB⟩ := by simpa only [Prod.mk.injEq] using hdata
  refine ⟨p, hrun, by rw [hdataB], socket_pair_stream_safety ByteRun.cfg ByteRun.cfg ⟨0⟩ ⟨9⟩
    ByteRun.cfgA ByteRun.cfgB ByteRun.adapter ByteRun.adapter (by decide) (by decide) rfl rfl
    ByteRun.emits_adapter ByteRun.emits_adapter ByteRun.start p ⟨0, Or.inl rfl⟩ ⟨0, Or.inr rfl⟩
    ByteRun.events ByteRun.genuine_events hrun ?_ ?_⟩
  · rw [hdataA]
    decide
  · rw [hdataB]
    decide

end

end Sponge
