import Mathlib.Tactic
import Sponge.Apps.BidirectionalStreamCopy
import Sponge.Network.Sockets

/-!
# From the input of one program to the output of another

`tcp_udp` and `tcp_ipv4` open a socket, which starts a thread for the connection, and join it to
their standard input and output with `bidirectional_stream_copy`. The main thread and the thread of
the socket talk through the two ends of a socket pair of the system.

Two such programs are a pipe. A byte passes through the copy of the first program, its socket pair,
its thread, the network, and the same in reverse order; every one of these parts delivers a prefix
of what it was given, and an end only after everything else. What the parts do was shown for each of
them; the socket pairs are those of the system, and what is assumed of them is `Program.Joined`.

## Main definitions

* `Program`: the two threads of a program
* `Program.Joined`: the socket pair between them
* `StreamCopy.Reached`: the main thread has reached its state by copying

## Main results

* `program_pair_pipe`: what one program reads from its input, the other writes to its output
-/

namespace Sponge

namespace StreamCopy

/-- The variables at some time while `bidirectional_stream_copy` runs. -/
def Reached (s : StreamCopy) : Prop :=
  ∃ socket results done rules, socket.closed = false ∧
    bidirectionalStreamCopy socket results = .ok (done, rules, s)

variable {s : StreamCopy}

/-- What the socket was given came from the input. -/
theorem Reached.taken_prefix (h : s.Reached) : s.socket.taken <+: s.input.given := by
  obtain ⟨socket, results, done, rules, hclosed, hrun⟩ := h
  rw [(sound_run hclosed hrun).outbound.conveyed]
  exact List.prefix_append _ _

theorem Reached.taken_eq (h : s.Reached) (hshut : s.outboundShutdown = true) :
    s.socket.taken = s.input.given := by
  obtain ⟨socket, results, done, rules, hclosed, hrun⟩ := h
  have hout := (sound_run hclosed hrun).outbound
  exact hout.taken_eq (hout.finished hshut).1

/-- What the output was given came from the socket. -/
theorem Reached.output_prefix (h : s.Reached) : s.output.taken <+: s.socket.given := by
  obtain ⟨socket, results, done, rules, hclosed, hrun⟩ := h
  rw [(sound_run hclosed hrun).inbound.conveyed]
  exact List.prefix_append _ _

theorem Reached.output_eq (h : s.Reached) (hshut : s.inboundShutdown = true) :
    s.output.taken = s.socket.given := by
  obtain ⟨socket, results, done, rules, hclosed, hrun⟩ := h
  have hin := (sound_run hclosed hrun).inbound
  exact hin.taken_eq (hin.finished hshut).1

end StreamCopy

/-- The two threads of a program: the variables of `bidirectional_stream_copy`, and the loop of the
socket. -/
structure Program (δ : Type) where
  copy : StreamCopy
  thread : SocketLoop δ

namespace Program

variable {δ : Type}

/-- **The socket pair**, while the main thread copies and the thread of the socket loops: what is
read at one end was written at the other one, in that order, and an end is read after everything
else, if the other end was shut down. -/
structure Joined (p : Program δ) : Prop where
  outbound : p.thread.socket.threadData.given <+: p.copy.socket.taken
  outbound_eof : p.thread.socket.threadData.eof = true →
    p.thread.socket.threadData.given = p.copy.socket.taken ∧ p.copy.outboundShutdown = true
  inbound : p.copy.socket.given <+: p.thread.socket.threadData.taken
  inbound_eof : p.copy.socket.eof = true →
    p.copy.socket.given = p.thread.socket.threadData.taken ∧
      p.thread.socket.inboundShutdown = true

/-- **`y` writes to its output what `x` reads from its input**: a prefix of it, and all of it once
the output was closed at the end of the connection's stream, if that stream ended without an error
and the end of the input of `x` had reached its connection. -/
def Conveys (x y : Program δ) : Prop :=
  y.copy.output.taken <+: x.copy.input.given ∧
    (y.copy.inboundShutdown = true → y.copy.socket.eof = true →
      y.thread.socket.inbound.error = false → x.thread.socket.threadData.eof = true →
      y.copy.output.taken = x.copy.input.given)

variable {p x y : Program δ}

/-- The thread has read nothing but what came from the input. -/
theorem Joined.given_prefix (h : p.Joined) (hcopy : p.copy.Reached) :
    p.thread.socket.threadData.given <+: p.copy.input.given :=
  h.outbound.trans hcopy.taken_prefix

/-- **The parts of a pipe make a pipe.** -/
theorem conveys_of_parts (hthreads : x.thread.Conveys y.thread) (hx : x.Joined) (hy : y.Joined)
    (hcopyX : x.copy.Reached) (hcopyY : y.copy.Reached) : x.Conveys y := by
  obtain ⟨hpre, hall⟩ := hthreads
  constructor
  · calc
      y.copy.output.taken <+: y.copy.socket.given := hcopyY.output_prefix
      _ <+: y.thread.socket.threadData.taken := hy.inbound
      _ <+: x.thread.socket.threadData.given := hpre
      _ <+: x.copy.input.given := hx.given_prefix hcopyX
  · intro hclosed heofY herror heofX
    obtain ⟨hgivenY, htold⟩ := hy.inbound_eof heofY
    obtain ⟨hgivenX, hshut⟩ := hx.outbound_eof heofX
    calc
      y.copy.output.taken = y.copy.socket.given := hcopyY.output_eq hclosed
      _ = y.thread.socket.threadData.taken := hgivenY
      _ = x.thread.socket.threadData.given := (hall htold herror).1
      _ = x.copy.socket.taken := hgivenX
      _ = x.copy.input.given := hcopyX.taken_eq hshut

end Program

section

variable {δ : Type} [FdAdapter δ] [LawfulFdAdapter δ]

/-- **Two programs are a pipe in either direction.** One program connects and the other listens, or
both connect, over any of the adapters. Whatever the network loses, duplicates, delays and reorders,
and however the four threads take their turns, in every state reached what one program has written
to its output is a prefix of what the other has read from its input; and it is all of it once the
output was closed at the end of the connection's stream, if that stream ended without an error and
the end of the input had reached the connection of the other. -/
theorem program_pair_pipe (cfgA cfgB : TCPConfig) (isnA isnB : WrappingInt32)
    (adapterCfgA adapterCfgB : FdAdapter.Config δ) (adapterA adapterB : δ)
    (hcapA : 1 ≤ cfgA.recvCapacity) (hcapB : 1 ≤ cfgB.recvCapacity)
    (hopenA : (FdAdapter.fd adapterA).closed = false)
    (hopenB : (FdAdapter.fd adapterB).closed = false)
    (hsentA : LawfulFdAdapter.Emits adapterA []) (hsentB : LawfulFdAdapter.Emits adapterB [])
    (start threads : SocketPair δ) (hA : start.a.Fresh cfgA isnA adapterCfgA adapterA)
    (hB : start.b.Fresh cfgB isnB adapterCfgB adapterB) (events : List (PairEvent δ))
    (hgenuine : Fallible.Always SocketPair.step SocketPair.Genuine start events)
    (hrun : Fallible.run SocketPair.step start events = .ok threads) (copyA copyB : StreamCopy)
    (hcopyA : copyA.Reached) (hcopyB : copyB.Reached)
    (hjoinA : (Program.mk copyA threads.a).Joined) (hjoinB : (Program.mk copyB threads.b).Joined)
    (hshortA : copyA.input.given.length < 2 ^ 31 - 2)
    (hshortB : copyB.input.given.length < 2 ^ 31 - 2) :
    (Program.mk copyA threads.a).Conveys (Program.mk copyB threads.b) ∧
      (Program.mk copyB threads.b).Conveys (Program.mk copyA threads.a) := by
  have hpaired : threads.a.Paired threads.b :=
    SocketPair.paired_run hcapA hcapB hopenA hopenB hsentA hsentB hA hB hgenuine hrun
  have hgivenA := (hjoinA.given_prefix hcopyA).length_le.trans_lt hshortA
  have hgivenB := (hjoinB.given_prefix hcopyB).length_le.trans_lt hshortB
  exact ⟨Program.conveys_of_parts (hpaired.conveys hgivenA hgivenB) hjoinA hjoinB hcopyA hcopyB,
    Program.conveys_of_parts (hpaired.symm.conveys hgivenB hgivenA) hjoinB hjoinA hcopyB hcopyA⟩

/-- A byte passes from the input of one program to the output of the other. -/
theorem program_pair_pipe_byte :
    let copyA : StreamCopy :=
      { input := { given := [7], readCount := 1 }
        socket := { taken := [7], writeCount := 1 }
        output := {}
        outbound := ((ByteStream.new StreamCopy.bufferSize).write [7]).1.popOutput 1
        inbound := .new StreamCopy.bufferSize
        outboundShutdown := false
        inboundShutdown := false }
    let copyB : StreamCopy :=
      { input := {}
        socket := { given := [7], readCount := 1 }
        output := { taken := [7], writeCount := 1 }
        outbound := .new StreamCopy.bufferSize
        inbound := ((ByteStream.new StreamCopy.bufferSize).write [7]).1.popOutput 1
        outboundShutdown := false
        inboundShutdown := false }
    ∃ threads, Fallible.run SocketPair.step ByteRun.start ByteRun.events = .ok threads ∧
      (Program.mk copyA threads.a).Conveys (Program.mk copyB threads.b) := by
  intro copyA copyB
  obtain ⟨threads, hrun, hdata⟩ := Fallible.map_eq_ok_iff.mp ByteRun.run_events
  obtain ⟨hdataA, hdataB⟩ := by simpa only [Prod.mk.injEq] using hdata
  have hcopyA : copyA.Reached :=
    ⟨{}, [.ready [({ pollIn := true }, { read := .ok [7] })],
      .ready [({}, {}), ({ pollOut := true }, { writev := fun _ => .ok 1 })]], false,
      [.readInput, .writeSocket, .readSocket, .writeOutput], rfl, by decide +kernel⟩
  have hcopyB : copyB.Reached :=
    ⟨{}, [.ready [({}, {}), ({}, {}), ({ pollIn := true }, { read := .ok [7] })],
      .ready [({}, {}), ({}, {}), ({}, {}), ({ pollOut := true }, { writev := fun _ => .ok 1 })]],
      false, [.readInput, .writeSocket, .readSocket, .writeOutput], rfl, by decide +kernel⟩
  have hjoinA : (Program.mk copyA threads.a).Joined := by
    refine ⟨?_, ?_, List.nil_prefix, fun heof => by cases heof⟩
    · rw [hdataA]
    · rw [hdataA]
      rintro ⟨⟩
  have hjoinB : (Program.mk copyB threads.b).Joined := by
    refine ⟨?_, ?_, ?_, fun heof => by cases heof⟩
    · rw [hdataB]
    · rw [hdataB]
      rintro ⟨⟩
    · rw [hdataB]
  exact ⟨threads, hrun, (program_pair_pipe ByteRun.cfg ByteRun.cfg ⟨0⟩ ⟨9⟩ ByteRun.cfgA ByteRun.cfgB
    ByteRun.adapter ByteRun.adapter (by decide) (by decide) rfl rfl ByteRun.emits_adapter
    ByteRun.emits_adapter ByteRun.start threads ⟨0, Or.inl rfl⟩ ⟨0, Or.inr rfl⟩ ByteRun.events
    ByteRun.genuine_events hrun copyA copyB hcopyA hcopyB hjoinA hjoinB (by decide)
    (by decide)).1⟩

end

end Sponge
