import Mathlib.Tactic
import Sponge.ByteStream
import Sponge.Util.EventLoop

/-!
# Copying in both directions

`bidirectional_stream_copy` joins the standard input and output of a process to a socket: what is
read from the input goes through a byte stream to the socket, and what is read from the socket
through another one to the output. Four rules of an event loop do this. The end of the input is
passed on by shutting the socket down for writing, the end of what the socket delivers by closing
the output.

Each direction is a pipeline of a descriptor, a byte stream and a descriptor. Nothing is lost in it
or changed: what was read is what was written, followed by what the stream holds. That the pipeline
also ends rests on the rules that are left: as long as the reading rule is there and the stream has
room, or the writing rule is there and the stream has something to write, one of them is interested.

## Main definitions

* `StreamCopy`: the variables of the function
* `CopyRule`, `StreamCopy.rule`: its rules
* `bidirectionalStreamCopy`: the function
* `StreamCopy.Pipeline`: one of the directions

## Main results

* `StreamCopy.safe`: the invariant of every run
* `stream_copy_conveys`: nothing is lost, and an end is passed on after everything else
* `stream_copy_complete`: the function returns when both directions are complete
* `stream_copy_errors`: the exceptions it throws are those of the system
-/

namespace Sponge

/-- The variables of `bidirectional_stream_copy`. -/
structure StreamCopy where
  input : FileDescriptor
  socket : FileDescriptor
  output : FileDescriptor
  outbound : ByteStream
  inbound : ByteStream
  outboundShutdown : Bool
  inboundShutdown : Bool
  deriving DecidableEq, Repr

/-- The rules, in the order in which they are added. -/
inductive CopyRule where
  | readInput
  | writeSocket
  | readSocket
  | writeOutput
  deriving DecidableEq, Repr

/-- The answers of the system to a callback: to `read`, to `writev`, and to the call that passes on
an end. -/
structure CopyAnswers where
  read : Except ℕ (List UInt8) := .ok []
  writev : ℕ → Except ℕ ℕ := fun _ => .ok 0
  finish : Except ℕ Unit := .ok ()

namespace StreamCopy

def maxCopyLength : ℕ := 65536

def bufferSize : ℕ := 1048576

/-- The start: the socket has its flags and counters, and what passes through it from now on is
recorded. -/
def new (socket : FileDescriptor) : StreamCopy where
  input := {}
  socket := { socket with given := [], taken := [] }
  output := {}
  outbound := .new bufferSize
  inbound := .new bufferSize
  outboundShutdown := false
  inboundShutdown := false

/-- Read from a descriptor into a byte stream, as much as it has room for. -/
def fill (fd : FileDescriptor) (stream : ByteStream) (answer : Except ℕ (List UInt8)) :
    Except SystemException (FileDescriptor × ByteStream) := do
  let (fd, data) ← fd.read stream.remainingCapacity answer
  let stream := (stream.write data).1
  return (fd, if fd.eof then stream.endInput else stream)

/-- Write from a byte stream to a descriptor; what was not written stays in the stream. -/
def drain (stream : ByteStream) (fd : FileDescriptor) (kernel : ℕ → Except ℕ ℕ) :
    Except SystemException (ByteStream × FileDescriptor) := do
  let bytesToWrite := min maxCopyLength stream.bufferSize
  let (fd, bytesWritten) ← fd.write [stream.peekOutput bytesToWrite] false kernel
  return (stream.popOutput bytesWritten, fd)

/-- Rule 1: read from the input into the outbound stream. -/
def readInput : Rule StreamCopy CopyAnswers where
  fd := input
  direction := .pollIn
  callback := fun answers s => do
    let (fd, stream) ← fill s.input s.outbound answers.read
    return { s with input := fd, outbound := stream }
  interest := fun s =>
    !s.outbound.error && decide (0 < s.outbound.remainingCapacity) && !s.inbound.error
  cancel := fun s => { s with outbound := s.outbound.endInput }

/-- Rule 2: write from the outbound stream to the socket. -/
def writeSocket : Rule StreamCopy CopyAnswers where
  fd := socket
  direction := .pollOut
  callback := fun answers s => do
    let (stream, fd) ← drain s.outbound s.socket answers.writev
    if stream.eof then
      let fd ← fd.shutdownWrite answers.finish
      return { s with outbound := stream, socket := fd, outboundShutdown := true }
    else
      return { s with outbound := stream, socket := fd }
  interest := fun s => !s.outbound.bufferEmpty || (s.outbound.eof && !s.outboundShutdown)
  cancel := fun s => { s with outbound := s.outbound.endInput }

/-- Rule 3: read from the socket into the inbound stream. -/
def readSocket : Rule StreamCopy CopyAnswers where
  fd := socket
  direction := .pollIn
  callback := fun answers s => do
    let (fd, stream) ← fill s.socket s.inbound answers.read
    return { s with socket := fd, inbound := stream }
  interest := fun s =>
    !s.inbound.error && decide (0 < s.inbound.remainingCapacity) && !s.outbound.error
  cancel := fun s => { s with inbound := s.inbound.endInput }

/-- Rule 4: write from the inbound stream to the output. -/
def writeOutput : Rule StreamCopy CopyAnswers where
  fd := output
  direction := .pollOut
  callback := fun answers s => do
    let (stream, fd) ← drain s.inbound s.output answers.writev
    if stream.eof then
      let fd ← fd.close answers.finish
      return { s with inbound := stream, output := fd, inboundShutdown := true }
    else
      return { s with inbound := stream, output := fd }
  interest := fun s => !s.inbound.bufferEmpty || (s.inbound.eof && !s.inboundShutdown)
  cancel := fun s => { s with inbound := s.inbound.endInput }

def rule : CopyRule → Rule StreamCopy CopyAnswers
  | .readInput => readInput
  | .writeSocket => writeSocket
  | .readSocket => readSocket
  | .writeOutput => writeOutput

end StreamCopy

/-- `bidirectional_stream_copy`: the rules, and turns of the event loop until it exits. -/
def bidirectionalStreamCopy (socket : FileDescriptor) (results : List (PollResult CopyAnswers)) :
    Except SystemException (Bool × List CopyRule × StreamCopy) :=
  EventLoop.loop StreamCopy.rule results [.readInput, .writeSocket, .readSocket, .writeOutput]
    (.new socket)

namespace StreamCopy

open Fallible (bind_eq_ok_iff bind_eq_error_iff)

variable {source source' sink sink' : FileDescriptor} {stream stream' : ByteStream}

/-! ## One direction -/

/-- **What `fill` does**: everything that was read is in the stream now. -/
theorem fill_eq_ok {answer : Except ℕ (List UInt8)}
    (h : fill source stream answer = .ok (source', stream')) :
    ∃ data : List UInt8,
      source'.given = source.given ++ data ∧ source'.taken = source.taken ∧
      source'.closed = source.closed ∧ source'.readCount = source.readCount + 1 ∧
      stream' = (if source'.eof then (stream.write data).1.endInput else (stream.write data).1) ∧
      (stream.write data).1.buffer = stream.buffer ++ data := by
  obtain ⟨⟨fd, data⟩, hread, heq⟩ := bind_eq_ok_iff.mp h
  cases heq
  obtain ⟨-, hle, rfl⟩ := FileDescriptor.read_eq_ok_iff.mp hread
  refine ⟨data, rfl, rfl, rfl, rfl, rfl, ?_⟩
  rw [ByteStream.write_fst_buffer, List.take_of_length_le (hle.trans (min_le_right _ _))]

/-- **What `drain` does**: a prefix of the stream was written and removed. -/
theorem drain_eq_ok {kernel : ℕ → Except ℕ ℕ} (hwf : stream.WellFormed)
    (h : drain stream sink kernel = .ok (stream', sink')) :
    ∃ n, stream' = stream.popOutput n ∧
      sink' = { sink with
        taken := sink.taken ++ stream.buffer.take (min stream.size n)
        writeCount := sink.writeCount + 1 } := by
  obtain ⟨⟨fd, n⟩, hwrite, heq⟩ := bind_eq_ok_iff.mp h
  cases heq
  obtain ⟨-, hle, -, rfl⟩ := FileDescriptor.write_bytes_eq_ok_iff.mp hwrite
  refine ⟨n, rfl, ?_⟩
  -- no more was written than was looked at
  have hsize := hwf.size_eq
  simp only [ByteStream.peekOutput, ByteStream.bufferSize, List.length_take] at hle
  have hmin : min n (min stream.size (min maxCopyLength stream.size)) = min stream.size n := by
    omega
  simp only [FileDescriptor.wrote, FileDescriptor.registerWrite, ByteStream.peekOutput,
    ByteStream.bufferSize, List.take_take, hmin]

/-- **One direction**: a descriptor to read from, the stream, and a descriptor to write to, with
whether the rules that read and write are left and whether the end was passed on. -/
structure Pipeline (source : FileDescriptor) (stream : ByteStream) (sink : FileDescriptor)
    (reads writes : Prop) (shutdown : Bool) : Prop where
  wellFormed : stream.WellFormed
  capacity_eq : stream.capacity = bufferSize
  error_eq : stream.error = false
  /-- nothing is lost and nothing changed -/
  conveyed : source.given = sink.taken ++ stream.buffer
  ended : ¬reads → stream.inputEnded = true
  opened : reads → writes → source.eof = false → stream.inputEnded = false
  /-- the end is passed on after everything else, and then nothing more is read -/
  finished : shutdown = true → stream.eof = true ∧ (reads → source.eof = true)

namespace Pipeline

variable {reads writes : Prop} {shutdown : Bool}

theorem pipeline_new (h : source.given = sink.taken) (hreads : reads) :
    Pipeline source (.new bufferSize) sink reads writes false where
  wellFormed := ByteStream.wellFormed_new _
  capacity_eq := rfl
  error_eq := rfl
  conveyed := h.trans (List.append_nil _).symm
  ended := fun hnot => absurd hreads hnot
  opened := fun _ _ _ => rfl
  finished := fun hshut => by cases hshut

variable (h : Pipeline source stream sink reads writes shutdown)

include h

/-- Only what was read and written, and the end of the source, matter of the descriptors. -/
theorem congr (hgiven : source'.given = source.given) (heof : source'.eof = source.eof)
    (htaken : sink'.taken = sink.taken) :
    Pipeline source' stream sink' reads writes shutdown where
  wellFormed := h.wellFormed
  capacity_eq := h.capacity_eq
  error_eq := h.error_eq
  conveyed := by rw [hgiven, htaken, h.conveyed]
  ended := h.ended
  opened := by rw [heof]; exact h.opened
  finished := by rw [heof]; exact h.finished

/-- The source is read. -/
theorem fill {answer : Except ℕ (List UInt8)} (hreads : reads) (heof : source.eof = false)
    (hok : fill source stream answer = .ok (source', stream')) :
    Pipeline source' stream' sink reads writes shutdown := by
  obtain ⟨data, hgiven, -, -, -, rfl, hbuffer⟩ := fill_eq_ok hok
  have hshut : shutdown = false := by
    by_contra hne
    have := (h.finished (by simpa using hne)).2 hreads
    rw [heof] at this
    cases this
  have hconveyed : source'.given = sink.taken ++ (stream.write data).1.buffer := by
    rw [hgiven, h.conveyed, hbuffer, List.append_assoc]
  have hwf := h.wellFormed.write data
  cases hend : source'.eof with
  | true =>
    exact ⟨hwf.endInput, h.capacity_eq, h.error_eq, hconveyed, fun _ => rfl,
      fun _ _ hopen => by simp [hend] at hopen, fun hs => by simp [hshut] at hs⟩
  | false =>
    exact ⟨hwf, h.capacity_eq, h.error_eq, hconveyed, fun hnot => absurd hreads hnot,
      fun _ hwrites _ => h.opened hreads hwrites heof, fun hs => by simp [hshut] at hs⟩

/-- The sink is written to. -/
theorem drain {kernel : ℕ → Except ℕ ℕ} (hok : drain stream sink kernel = .ok (stream', sink')) :
    Pipeline source stream' sink' reads writes shutdown := by
  obtain ⟨n, rfl, rfl⟩ := drain_eq_ok h.wellFormed hok
  refine ⟨h.wellFormed.popOutput n, h.capacity_eq, h.error_eq, ?_, h.ended, h.opened,
    fun hs => ⟨?_, (h.finished hs).2⟩⟩
  · rw [h.conveyed, ByteStream.popOutput_buffer, List.append_assoc, List.take_append_drop]
  · obtain ⟨hended, hsize⟩ := ByteStream.eof_iff.mp (h.finished hs).1
    refine ByteStream.eof_iff.mpr ⟨hended, ?_⟩
    rw [ByteStream.popOutput_size, hsize]
    omega

/-- The end is passed on. Since the rule that writes is left, the end of the stream is that of the
source. -/
theorem finish (hwrites : writes) (heof : stream.eof = true) :
    Pipeline source stream sink reads writes true := by
  refine ⟨h.wellFormed, h.capacity_eq, h.error_eq, h.conveyed, h.ended, h.opened, fun _ =>
    ⟨heof, fun hreads => ?_⟩⟩
  by_contra hopen
  have hended := h.opened hreads hwrites (by simpa using hopen)
  rw [(ByteStream.eof_iff.mp heof).1] at hended
  cases hended

/-- The end of the input stays an end. -/
theorem eof_endInput (hs : shutdown = true) : stream.endInput.eof = true :=
  ByteStream.eof_iff.mpr ⟨rfl, (ByteStream.eof_iff.mp (h.finished hs).1).2⟩

/-- The rule that reads is cancelled. -/
theorem cancelRead {reads' : Prop} (hnot : ¬reads') :
    Pipeline source stream.endInput sink reads' writes shutdown :=
  ⟨h.wellFormed.endInput, h.capacity_eq, h.error_eq, h.conveyed, fun _ => rfl,
    fun hreads => absurd hreads hnot, fun hs => ⟨h.eof_endInput hs, fun hr => absurd hr hnot⟩⟩

/-- The rule that writes is cancelled. -/
theorem cancelWrite {writes' : Prop} (hnot : ¬writes') :
    Pipeline source stream.endInput sink reads writes' shutdown :=
  ⟨h.wellFormed.endInput, h.capacity_eq, h.error_eq, h.conveyed, fun _ => rfl,
    fun _ hwrites => absurd hwrites hnot, fun hs => ⟨h.eof_endInput hs, (h.finished hs).2⟩⟩

/-- Everything that was read has been written once the stream is at its end. -/
theorem taken_eq (heof : stream.eof = true) : sink.taken = source.given := by
  have hempty := h.wellFormed.buffer_eq_nil_iff.mpr (ByteStream.eof_iff.mp heof).2
  rw [h.conveyed, hempty, List.append_nil]

end Pipeline

/-! ## Both directions -/

/-- **The invariant of every run**: two pipelines that share the socket. The socket is never closed,
and the output only by its own rule, so that a rule that writes is gone only if its descriptor hung
up or its work is done. -/
structure Sound (hup : Prop) (rules : List CopyRule) (s : StreamCopy) : Prop where
  outbound : Pipeline s.input s.outbound s.socket (.readInput ∈ rules) (.writeSocket ∈ rules)
    s.outboundShutdown
  inbound : Pipeline s.socket s.inbound s.output (.readSocket ∈ rules) (.writeOutput ∈ rules)
    s.inboundShutdown
  socket_closed : s.socket.closed = false
  output_closed : s.output.closed = true → s.inboundShutdown = true
  socket_hup : .writeSocket ∉ rules → hup
  output_hup : .writeOutput ∉ rules → s.inboundShutdown = true ∨ hup

/-- A rule that reads is called only before the end of its descriptor. -/
def Armed : CopyRule → StreamCopy → Prop
  | .readInput, s => s.input.eof = false
  | .readSocket, s => s.socket.eof = false
  | _, _ => True

variable {hup : Prop} {rules : List CopyRule} {s s' : StreamCopy} {answers : CopyAnswers}

theorem sound_new {socket : FileDescriptor} (hclosed : socket.closed = false) :
    Sound hup [.readInput, .writeSocket, .readSocket, .writeOutput] (new socket) where
  outbound := Pipeline.pipeline_new rfl (by decide)
  inbound := Pipeline.pipeline_new rfl (by decide)
  socket_closed := hclosed
  output_closed := fun h => by cases h
  socket_hup := fun h => absurd (by decide) h
  output_hup := fun h => absurd (by decide) h

/-- Cancelling a rule ends the input of its stream. -/
theorem Sound.cancel (h : Sound hup rules s) {i : CopyRule} (hnodup : rules.Nodup)
    (hreason : ((rule i).direction = .pollIn ∧ ((rule i).fd s).eof = true) ∨
      ((rule i).fd s).closed = true ∨ hup) :
    Sound hup (rules.erase i) ((rule i).cancel s) := by
  have hgone : i ∉ rules.erase i := hnodup.not_mem_erase
  have hkept : ∀ j, j ≠ i → (j ∈ rules.erase i ↔ j ∈ rules) := fun j hj => List.mem_erase_of_ne hj
  cases i with
  | readInput =>
    refine ⟨?_, ?_, h.socket_closed, h.output_closed, ?_, ?_⟩
    · rw [hkept .writeSocket (by decide)]
      exact h.outbound.cancelRead hgone
    · rw [hkept .readSocket (by decide), hkept .writeOutput (by decide)]
      exact h.inbound
    · rw [hkept .writeSocket (by decide)]
      exact h.socket_hup
    · rw [hkept .writeOutput (by decide)]
      exact h.output_hup
  | writeSocket =>
    refine ⟨?_, ?_, h.socket_closed, h.output_closed, fun _ => ?_, ?_⟩
    · rw [hkept .readInput (by decide)]
      exact h.outbound.cancelWrite hgone
    · rw [hkept .readSocket (by decide), hkept .writeOutput (by decide)]
      exact h.inbound
    · -- it is not a rule that reads, and the socket is not closed
      rcases hreason with ⟨hdir, -⟩ | hclosed | hhup
      · cases hdir
      · exact absurd (h.socket_closed.symm.trans hclosed) Bool.false_ne_true
      · exact hhup
    · rw [hkept .writeOutput (by decide)]
      exact h.output_hup
  | readSocket =>
    refine ⟨?_, ?_, h.socket_closed, h.output_closed, ?_, ?_⟩
    · rw [hkept .readInput (by decide), hkept .writeSocket (by decide)]
      exact h.outbound
    · rw [hkept .writeOutput (by decide)]
      exact h.inbound.cancelRead hgone
    · rw [hkept .writeSocket (by decide)]
      exact h.socket_hup
    · rw [hkept .writeOutput (by decide)]
      exact h.output_hup
  | writeOutput =>
    refine ⟨?_, ?_, h.socket_closed, h.output_closed, ?_, fun _ => ?_⟩
    · rw [hkept .readInput (by decide), hkept .writeSocket (by decide)]
      exact h.outbound
    · rw [hkept .readSocket (by decide)]
      exact h.inbound.cancelWrite hgone
    · rw [hkept .writeSocket (by decide)]
      exact h.socket_hup
    · rcases hreason with ⟨hdir, -⟩ | hclosed | hhup
      · cases hdir
      · exact Or.inl (h.output_closed hclosed)
      · exact Or.inr hhup

theorem readInput_eq_ok (hok : readInput.callback answers s = .ok s') :
    ∃ fd stream, fill s.input s.outbound answers.read = .ok (fd, stream) ∧
      s' = { s with input := fd, outbound := stream } := by
  obtain ⟨⟨fd, stream⟩, hfill, heq⟩ := bind_eq_ok_iff.mp hok
  cases heq
  exact ⟨fd, stream, hfill, rfl⟩

theorem readSocket_eq_ok (hok : readSocket.callback answers s = .ok s') :
    ∃ fd stream, fill s.socket s.inbound answers.read = .ok (fd, stream) ∧
      s' = { s with socket := fd, inbound := stream } := by
  obtain ⟨⟨fd, stream⟩, hfill, heq⟩ := bind_eq_ok_iff.mp hok
  cases heq
  exact ⟨fd, stream, hfill, rfl⟩

theorem writeSocket_eq_ok (hok : writeSocket.callback answers s = .ok s') :
    ∃ stream fd, drain s.outbound s.socket answers.writev = .ok (stream, fd) ∧
      ((stream.eof = false ∧ s' = { s with outbound := stream, socket := fd }) ∨
        (stream.eof = true ∧ s' = { s with
          outbound := stream, socket := fd.registerWrite, outboundShutdown := true })) := by
  obtain ⟨⟨stream, fd⟩, hdrain, hrest⟩ := bind_eq_ok_iff.mp hok
  dsimp only at hrest
  split_ifs at hrest with heof
  · obtain ⟨fd', hshutdown, heq⟩ := bind_eq_ok_iff.mp hrest
    obtain ⟨-, -, hfd⟩ := bind_eq_ok_iff.mp hshutdown
    cases hfd
    cases heq
    exact ⟨stream, fd, hdrain, Or.inr ⟨heof, rfl⟩⟩
  · cases hrest
    exact ⟨stream, fd, hdrain, Or.inl ⟨by simpa using heof, rfl⟩⟩

theorem writeOutput_eq_ok (hok : writeOutput.callback answers s = .ok s') :
    ∃ stream fd, drain s.inbound s.output answers.writev = .ok (stream, fd) ∧
      ((stream.eof = false ∧ s' = { s with inbound := stream, output := fd }) ∨
        (stream.eof = true ∧ s' = { s with
          inbound := stream, output := { fd with eof := true, closed := true }
          inboundShutdown := true })) := by
  obtain ⟨⟨stream, fd⟩, hdrain, hrest⟩ := bind_eq_ok_iff.mp hok
  dsimp only at hrest
  split_ifs at hrest with heof
  · obtain ⟨fd', hclose, heq⟩ := bind_eq_ok_iff.mp hrest
    obtain ⟨-, -, hfd⟩ := bind_eq_ok_iff.mp hclose
    cases hfd
    cases heq
    exact ⟨stream, fd, hdrain, Or.inr ⟨heof, rfl⟩⟩
  · cases hrest
    exact ⟨stream, fd, hdrain, Or.inl ⟨by simpa using heof, rfl⟩⟩

/-- **A callback keeps the invariant.** -/
theorem Sound.call (h : Sound hup rules s) {i : CopyRule} (hi : i ∈ rules) (harmed : Armed i s)
    (hok : (rule i).callback answers s = .ok s') : Sound hup rules s' := by
  cases i with
  | readInput =>
    obtain ⟨fd, stream, hfill, rfl⟩ := readInput_eq_ok hok
    exact ⟨h.outbound.fill hi harmed hfill, h.inbound, h.socket_closed, h.output_closed,
      h.socket_hup, h.output_hup⟩
  | writeSocket =>
    obtain ⟨stream, fd, hdrain, hcases⟩ := writeSocket_eq_ok hok
    have hout := h.outbound.drain hdrain
    obtain ⟨n, rfl, rfl⟩ := drain_eq_ok h.outbound.wellFormed hdrain
    rcases hcases with ⟨-, rfl⟩ | ⟨heof, rfl⟩
    · exact ⟨hout, h.inbound.congr rfl rfl rfl, h.socket_closed, h.output_closed, h.socket_hup,
        h.output_hup⟩
    · exact ⟨(hout.finish hi heof).congr rfl rfl rfl, h.inbound.congr rfl rfl rfl, h.socket_closed,
        h.output_closed, h.socket_hup, h.output_hup⟩
  | readSocket =>
    obtain ⟨fd, stream, hfill, rfl⟩ := readSocket_eq_ok hok
    obtain ⟨data, -, htaken, hclosed, -⟩ := fill_eq_ok hfill
    exact ⟨h.outbound.congr rfl rfl htaken, h.inbound.fill hi harmed hfill,
      hclosed.trans h.socket_closed, h.output_closed, h.socket_hup, h.output_hup⟩
  | writeOutput =>
    obtain ⟨stream, fd, hdrain, hcases⟩ := writeOutput_eq_ok hok
    have hin := h.inbound.drain hdrain
    obtain ⟨n, rfl, rfl⟩ := drain_eq_ok h.inbound.wellFormed hdrain
    rcases hcases with ⟨-, rfl⟩ | ⟨heof, rfl⟩
    · exact ⟨h.outbound, hin, h.socket_closed, h.output_closed, h.socket_hup, h.output_hup⟩
    · exact ⟨h.outbound, (hin.finish hi heof).congr rfl rfl rfl, h.socket_closed, fun _ => rfl,
        h.socket_hup, fun _ => Or.inl rfl⟩

/-- A callback sets the end of no descriptor but its own. -/
theorem armed_of_call (hwf : s.outbound.WellFormed) {i j : CopyRule} (hne : j ≠ i)
    (hj : Armed j s) (hok : (rule i).callback answers s = .ok s') : Armed j s' := by
  cases i with
  | readInput =>
    obtain ⟨fd, stream, hfill, rfl⟩ := readInput_eq_ok hok
    cases j <;> first | exact absurd rfl hne | exact hj
  | writeSocket =>
    obtain ⟨stream, fd, hdrain, hcases⟩ := writeSocket_eq_ok hok
    obtain ⟨n, rfl, rfl⟩ := drain_eq_ok hwf hdrain
    rcases hcases with ⟨-, rfl⟩ | ⟨-, rfl⟩
    · cases j <;> exact hj
    · cases j <;> exact hj
  | readSocket =>
    obtain ⟨fd, stream, hfill, rfl⟩ := readSocket_eq_ok hok
    cases j <;> first | exact absurd rfl hne | exact hj
  | writeOutput =>
    obtain ⟨stream, fd, -, hcases⟩ := writeOutput_eq_ok hok
    rcases hcases with ⟨-, rfl⟩ | ⟨-, rfl⟩
    · cases j <;> exact hj
    · cases j <;> exact hj

/-- **The rules keep the invariant.** -/
theorem safe (hup : Prop) : EventLoop.Safe rule (fun _ _ _ => True) (Sound hup) Armed hup where
  arm := by
    intro i rules s _ _ heof _
    cases i with
    | readInput => simpa [rule, readInput, Armed] using heof
    | writeSocket => trivial
    | readSocket => simpa [rule, readSocket, Armed] using heof
    | writeOutput => trivial
  cancel := fun _ hnodup h hreason => h.cancel hnodup hreason
  cancel_armed := by
    intro i j rules s _ _ _ hj
    cases i <;> cases j <;> exact hj
  call := fun hi h harmed _ hok => h.call hi harmed hok
  call_armed := fun _ hne h _ _ hj hok => armed_of_call h.outbound.wellFormed hne hj hok

/-! ## Completion -/

/-- **A direction that has come to rest is complete**: if neither rule is interested and the rule
that writes is left, then the source has ended, and everything has been written. -/
theorem Pipeline.complete {reads writes : Prop} {shutdown : Bool}
    (h : Pipeline source stream sink reads writes shutdown)
    (hread : reads → (!stream.error && decide (0 < stream.remainingCapacity)) = false)
    (hwrite : (!stream.bufferEmpty || (stream.eof && !shutdown)) = false) :
    shutdown = true ∧ sink.taken = source.given := by
  simp only [Bool.or_eq_false_iff, Bool.not_eq_false', ByteStream.bufferEmpty, beq_iff_eq] at hwrite
  obtain ⟨hsize, hshut⟩ := hwrite
  -- an empty stream has room
  have hroom : 0 < stream.remainingCapacity := by
    rw [ByteStream.remainingCapacity, h.capacity_eq, hsize]
    decide
  have hnot : ¬reads := fun hreads => by simpa [h.error_eq, hroom] using hread hreads
  have heof : stream.eof = true := ByteStream.eof_iff.mpr ⟨h.ended hnot, hsize⟩
  exact ⟨by simpa [heof] using hshut, h.taken_eq heof⟩

/-- Cancelling a rule does not arouse the interest of one before it. -/
theorem interest_stable :
    [CopyRule.readInput, .writeSocket, .readSocket, .writeOutput].Pairwise fun i j =>
      ∀ t, (rule i).interest t = false → (rule i).interest ((rule j).cancel t) = false := by
  have hread : ∀ j t, readInput.interest t = false →
      readInput.interest ((rule j).cancel t) = false := fun j t h => by cases j <;> exact h
  have hread' : ∀ j t, readSocket.interest t = false →
      readSocket.interest ((rule j).cancel t) = false := fun j t h => by cases j <;> exact h
  simp only [List.pairwise_cons, List.mem_cons, List.not_mem_nil, or_false, forall_eq_or_imp,
    forall_eq, false_imp_iff, implies_true, and_true, List.Pairwise.nil]
  exact ⟨⟨hread .writeSocket, hread .readSocket, hread .writeOutput⟩,
    ⟨fun _ h => h, fun _ h => h⟩, hread' .writeOutput⟩

/-! ## Exceptions -/

/-- The callbacks throw what the system makes them throw. -/
theorem callback_error {i : CopyRule} {e : SystemException}
    (h : (rule i).callback answers s = .error e) : e.FromSystem := by
  have hfill : ∀ {fd stream answer}, fill fd stream answer = .error e → e.FromSystem := by
    intro fd stream answer hfill
    rcases bind_eq_error_iff.mp hfill with hread | ⟨r, -, hpure⟩
    · exact FileDescriptor.fromSystem_of_read hread
    · cases hpure
  have hdrain : ∀ {stream fd kernel}, drain stream fd kernel = .error e → e.FromSystem := by
    intro stream fd kernel hdrain
    rcases bind_eq_error_iff.mp hdrain with hwrite | ⟨r, -, hpure⟩
    · exact FileDescriptor.fromSystem_of_write hwrite
    · cases hpure
  cases i with
  | readInput =>
    rcases bind_eq_error_iff.mp h with h | ⟨r, -, hpure⟩
    · exact hfill h
    · cases hpure
  | writeSocket =>
    rcases bind_eq_error_iff.mp h with h | ⟨r, -, hrest⟩
    · exact hdrain h
    · dsimp only at hrest
      split_ifs at hrest
      · rcases bind_eq_error_iff.mp hrest with hshutdown | ⟨fd, -, hpure⟩
        · exact FileDescriptor.fromSystem_of_shutdownWrite hshutdown
        · cases hpure
      · cases hrest
  | readSocket =>
    rcases bind_eq_error_iff.mp h with h | ⟨r, -, hpure⟩
    · exact hfill h
    · cases hpure
  | writeOutput =>
    rcases bind_eq_error_iff.mp h with h | ⟨r, -, hrest⟩
    · exact hdrain h
    · dsimp only at hrest
      split_ifs at hrest
      · rcases bind_eq_error_iff.mp hrest with hclose | ⟨fd, -, hpure⟩
        · exact FileDescriptor.fromSystem_of_close hclose
        · cases hpure
      · cases hrest

theorem drain_writeCount {kernel : ℕ → Except ℕ ℕ}
    (h : drain stream sink kernel = .ok (stream', sink')) :
    sink'.writeCount = sink.writeCount + 1 := by
  obtain ⟨⟨fd, n⟩, hwrite, heq⟩ := bind_eq_ok_iff.mp h
  cases heq
  obtain ⟨-, -, -, rfl⟩ := FileDescriptor.write_once_eq_ok_iff.mp hwrite
  rfl

/-- Every callback reads or writes its descriptor. -/
theorem serves (i : CopyRule) : EventLoop.Serves (rule i) := by
  intro answers s s' hok
  left
  cases i with
  | readInput =>
    obtain ⟨fd, stream, hfill, rfl⟩ := readInput_eq_ok hok
    obtain ⟨data, -, -, -, hcount, -⟩ := fill_eq_ok hfill
    change s.input.readCount ≠ fd.readCount
    rw [hcount]
    exact FileDescriptor.ne_add_one _
  | writeSocket =>
    obtain ⟨stream, fd, hdrain, hcases⟩ := writeSocket_eq_ok hok
    have hcount := drain_writeCount hdrain
    rcases hcases with ⟨-, rfl⟩ | ⟨-, rfl⟩
    · change s.socket.writeCount ≠ fd.writeCount
      rw [hcount]
      exact FileDescriptor.ne_add_one _
    · -- the shutdown counts as well
      change s.socket.writeCount ≠ fd.writeCount + 1
      rw [hcount]
      exact FileDescriptor.ne_add_two _
  | readSocket =>
    obtain ⟨fd, stream, hfill, rfl⟩ := readSocket_eq_ok hok
    obtain ⟨data, -, -, -, hcount, -⟩ := fill_eq_ok hfill
    change s.socket.readCount ≠ fd.readCount
    rw [hcount]
    exact FileDescriptor.ne_add_one _
  | writeOutput =>
    obtain ⟨stream, fd, hdrain, hcases⟩ := writeOutput_eq_ok hok
    have hcount := drain_writeCount hdrain
    rcases hcases with ⟨-, rfl⟩ | ⟨-, rfl⟩
    · change s.output.writeCount ≠ fd.writeCount
      rw [hcount]
      exact FileDescriptor.ne_add_one _
    · change s.output.writeCount ≠ fd.writeCount
      rw [hcount]
      exact FileDescriptor.ne_add_one _

theorem sound_run {socket : FileDescriptor} {results : List (PollResult CopyAnswers)} {done : Bool}
    (hclosed : socket.closed = false)
    (hrun : bidirectionalStreamCopy socket results = .ok (done, rules, s)) :
    Sound (∃ result ∈ results, result.HungUp) rules s :=
  ((safe _).loop (by decide) (sound_new hclosed) (fun _ _ _ => trivial) fun result hmem hhung =>
    ⟨result, hmem, hhung⟩).1 _ _ _ hrun

end StreamCopy

/-- **The copy loses nothing and invents nothing.** Whatever `poll` finds and the system answers, at
any time what was read from the input is what was written to the socket followed by what the
outbound stream holds, and what was read from the socket is what was written to the output followed
by what the inbound stream holds; neither stream holds more than its capacity. Once an end was
passed on, everything that was read has been written, and nothing more will be read: the rule that
reads is gone or its descriptor is at its end. -/
theorem stream_copy_conveys (socket : FileDescriptor) (hclosed : socket.closed = false)
    (results : List (PollResult CopyAnswers)) (done : Bool) (rules : List CopyRule) (s : StreamCopy)
    (hrun : bidirectionalStreamCopy socket results = .ok (done, rules, s)) :
    s.input.given = s.socket.taken ++ s.outbound.buffer ∧
    s.socket.given = s.output.taken ++ s.inbound.buffer ∧
    s.outbound.buffer.length ≤ 1048576 ∧ s.inbound.buffer.length ≤ 1048576 ∧
    (s.outboundShutdown = true →
      s.socket.taken = s.input.given ∧ (.readInput ∈ rules → s.input.eof = true)) ∧
    (s.inboundShutdown = true →
      s.output.taken = s.socket.given ∧ (.readSocket ∈ rules → s.socket.eof = true)) := by
  obtain ⟨hout, hin, -⟩ := StreamCopy.sound_run hclosed hrun
  have hlength : ∀ {stream : ByteStream}, stream.WellFormed →
      stream.capacity = StreamCopy.bufferSize → stream.buffer.length ≤ 1048576 := by
    intro stream hwf hcap
    rw [← hwf.size_eq]
    exact hwf.size_le.trans_eq hcap
  refine ⟨hout.conveyed, hin.conveyed, hlength hout.wellFormed hout.capacity_eq,
    hlength hin.wellFormed hin.capacity_eq, fun hshut => ?_, fun hshut => ?_⟩
  · exact ⟨hout.taken_eq (hout.finished hshut).1, (hout.finished hshut).2⟩
  · exact ⟨hin.taken_eq (hin.finished hshut).1, (hin.finished hshut).2⟩

/-- Of three bytes from the input the socket takes two; the third waits. -/
theorem stream_copy_conveys_partly :
    let s : StreamCopy :=
      { StreamCopy.new {} with
        input := { readCount := 1, given := [1, 2, 3] }
        socket := { writeCount := 1, taken := [1, 2] }
        outbound :=
          { ByteStream.new 1048576 with buffer := [3], size := 1, nwritten := 3, nread := 2 } }
    bidirectionalStreamCopy {}
        [.ready [({ pollIn := true }, { read := .ok [1, 2, 3] })],
          .ready [({}, {}), ({ pollOut := true }, { writev := fun _ => .ok 2 })]] =
        .ok (false, [.readInput, .writeSocket, .readSocket, .writeOutput], s) ∧
      s.input.given = s.socket.taken ++ s.outbound.buffer := by
  intro s
  have hrun : bidirectionalStreamCopy {}
      [.ready [({ pollIn := true }, { read := .ok [1, 2, 3] })],
        .ready [({}, {}), ({ pollOut := true }, { writev := fun _ => .ok 2 })]] =
      .ok (false, [.readInput, .writeSocket, .readSocket, .writeOutput], s) := by
    decide +kernel
  exact ⟨hrun, (stream_copy_conveys {} rfl _ _ _ _ hrun).1⟩

/-- **The copy returns when both directions are complete.** Unless a signal was caught, when it
returns everything that was read from the input was written to the socket, which was then shut down,
and everything that was read from the socket was written to the output, which was then closed; a
direction fails to be complete only if its rule that writes was cancelled after a hangup. -/
theorem stream_copy_complete (socket : FileDescriptor) (hclosed : socket.closed = false)
    (results : List (PollResult CopyAnswers)) (rules : List CopyRule) (s : StreamCopy)
    (hresults : ∀ result ∈ results, result ≠ .interrupted)
    (hrun : bidirectionalStreamCopy socket results = .ok (true, rules, s)) :
    ((s.outboundShutdown = true ∧ s.socket.taken = s.input.given) ∨
      (.writeSocket ∉ rules ∧ ∃ result ∈ results, result.HungUp)) ∧
    ((s.inboundShutdown = true ∧ s.output.taken = s.socket.given) ∨
      (.writeOutput ∉ rules ∧ ∃ result ∈ results, result.HungUp)) := by
  have hsound := StreamCopy.sound_run hclosed hrun
  have hrest := EventLoop.uninterested_of_done StreamCopy.interest_stable hresults hrun
  have hout := hsound.outbound
  have hin := hsound.inbound
  constructor
  · by_cases hwrites : .writeSocket ∈ rules
    · refine Or.inl (hout.complete (fun hreads => ?_) (hrest _ hwrites))
      simpa [StreamCopy.rule, StreamCopy.readInput, hin.error_eq] using hrest _ hreads
    · exact Or.inr ⟨hwrites, hsound.socket_hup hwrites⟩
  · by_cases hwrites : .writeOutput ∈ rules
    · refine Or.inl (hin.complete (fun hreads => ?_) (hrest _ hwrites))
      simpa [StreamCopy.rule, StreamCopy.readSocket, hout.error_eq] using hrest _ hreads
    · -- the output was closed by its own rule, or it hung up
      rcases hsound.output_hup hwrites with hshut | hhup
      · exact Or.inl ⟨hshut, hin.taken_eq (hin.finished hshut).1⟩
      · exact Or.inr ⟨hwrites, hhup⟩

/-- Two bytes from the input and one from the socket, each followed by the end: when nothing is left
to poll, both directions are complete. -/
theorem stream_copy_complete_both :
    let s : StreamCopy :=
      { input := { eof := true, readCount := 2, given := [1, 2] }
        socket := { eof := true, readCount := 2, writeCount := 2, given := [5], taken := [1, 2] }
        output := { eof := true, closed := true, writeCount := 1, taken := [5] }
        outbound := { ByteStream.new 1048576 with nwritten := 2, nread := 2, inputEnded := true }
        inbound := { ByteStream.new 1048576 with nwritten := 1, nread := 1, inputEnded := true }
        outboundShutdown := true
        inboundShutdown := true }
    (s.outboundShutdown = true ∧ s.socket.taken = s.input.given) ∧
      s.inboundShutdown = true ∧ s.output.taken = s.socket.given := by
  intro s
  have hrun : bidirectionalStreamCopy {}
      [.ready [({ pollIn := true }, { read := .ok [1, 2] }), ({}, {}),
          ({ pollIn := true }, { read := .ok [5] }), ({}, {})],
        .ready [({ pollIn := true }, {}), ({ pollOut := true }, { writev := fun _ => .ok 2 }),
          ({ pollIn := true }, {}), ({ pollOut := true }, { writev := fun _ => .ok 1 })],
        .timeout] = .ok (true, [.writeSocket], s) := by
    decide +kernel
  have hcomplete := stream_copy_complete {} rfl _ _ _ (by simp) hrun
  exact hcomplete.imp (Or.resolve_right · fun h => absurd h.2 (by decide))
    (Or.resolve_right · fun h => absurd h.2 (by decide))

/-- **The copy throws only what the system makes it throw**: an error that `poll` found, a system
call that failed, or one that returned what it never should. In particular it never waits busily. -/
theorem stream_copy_errors (socket : FileDescriptor) (results : List (PollResult CopyAnswers))
    (e : SystemException) (hrun : bidirectionalStreamCopy socket results = .error e) :
    (e = EventLoop.pollError ∨ e.FromSystem) ∧ e ≠ EventLoop.busyWait := by
  have hcause : e = EventLoop.pollError ∨ e.FromSystem := by
    rcases ((EventLoop.safe_true StreamCopy.rule).loop (by decide) trivial (fun _ _ _ => trivial)
      fun _ _ _ => trivial).2 e hrun with hpoll | ⟨i, -, s, answers, -, -, hcall⟩
    · exact Or.inl hpoll
    · exact Or.inr (StreamCopy.callback_error
        (EventLoop.callback_error_of_serves (StreamCopy.serves i) hcall))
  refine ⟨hcause, ?_⟩
  rintro rfl
  rcases hcause with hpoll | hsystem
  · exact EventLoop.busyWait_ne_pollError hpoll
  · exact EventLoop.not_fromSystem_busyWait hsystem

/-- A poll on which the input was found in error. -/
theorem stream_copy_errors_poll :
    bidirectionalStreamCopy {} [.ready [({ pollErr := true }, {})]] = .error EventLoop.pollError ∧
      (EventLoop.pollError = EventLoop.pollError ∨ EventLoop.pollError.FromSystem) ∧
      EventLoop.pollError ≠ EventLoop.busyWait :=
  have hrun : bidirectionalStreamCopy {} [.ready [({ pollErr := true }, {})]] =
      .error EventLoop.pollError := by decide +kernel
  ⟨hrun, stream_copy_errors {} _ _ hrun⟩

end Sponge
