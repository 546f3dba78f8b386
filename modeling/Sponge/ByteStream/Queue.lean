import Mathlib.Tactic
import Sponge.Foundations.BoundedQueue
import Sponge.Foundations.Run
import Sponge.ByteStream

/-!
# The byte stream as a bounded queue

`ByteStream` keeps a deque, its size and two running totals, and every operation updates some of
them. Whatever is called on a stream, it implements a bounded queue of bytes: a write puts in what
fits, `read` and `pop_output` remove bytes at the front, `peek_output` and `end_input` leave the
queue alone. Hence no byte is lost, duplicated or reordered on the way through a stream.

## Main definitions

* `ByteStreamCall`, `ByteStream.step`: the calls on a stream
* `ByteStream.accepted`, `ByteStream.popped`: the bytes that enter and leave with a call
* `ByteStream.Implements`: the stream holds the queue, and its counters describe it

## Main results

* `ByteStream.Implements.step`: every call is an operation of the queue
* `byteStream_bounded_fifo`: what a stream does along every run
-/

namespace Sponge

/-- A call on a byte stream. -/
inductive ByteStreamCall where
  | write (data : List UInt8)
  | read (len : ℕ)
  | peekOutput (len : ℕ)
  | popOutput (len : ℕ)
  | endInput
  deriving DecidableEq, Repr

/-- What a call does to the queue of bytes. -/
def ByteStreamCall.onQueue {capacity : ℕ} (q : BoundedQueue UInt8 capacity) :
    ByteStreamCall → BoundedQueue UInt8 capacity
  | .write data => q.put data
  | .read len => q.pop len
  | .peekOutput _ => q
  | .popOutput len => q.pop len
  | .endInput => q

namespace ByteStream

/-- One call. -/
def step (s : ByteStream) : ByteStreamCall → ByteStream
  | .write data => (s.write data).1
  | .read len => (s.read len).1
  | .peekOutput _ => s
  | .popOutput len => s.popOutput len
  | .endInput => s.endInput

/-- The bytes that a call accepts: the prefix of the data that a write reports as written. -/
def accepted (s : ByteStream) : ByteStreamCall → List UInt8
  | .write data => data.take (s.write data).2
  | _ => []

/-- The bytes that a call pops: what a read returns, and what `pop_output` takes off the front. -/
def popped (s : ByteStream) : ByteStreamCall → List UInt8
  | .read len => (s.read len).2
  | .popOutput len => s.buffer.take (s.buffer.length - (s.popOutput len).buffer.length)
  | _ => []

/-- The stream holds the bytes of the queue, and its counters describe them. -/
structure Implements {capacity : ℕ} (s : ByteStream) (q : BoundedQueue UInt8 capacity) : Prop
    extends WellFormed s where
  capacity_eq : s.capacity = capacity
  buffer_eq : s.buffer = q.elems

theorem implements_new (capacity : ℕ) :
    (new capacity).Implements (BoundedQueue.empty : BoundedQueue UInt8 capacity) where
  toWellFormed := wellFormed_new capacity
  capacity_eq := rfl
  buffer_eq := rfl

variable {s : ByteStream} {capacity : ℕ} {q : BoundedQueue UInt8 capacity}

section Operations

variable (h : s.Implements q)

include h

theorem Implements.remainingCapacity_eq : s.remainingCapacity = q.room := by
  rw [remainingCapacity, BoundedQueue.room, h.capacity_eq, h.size_eq, h.buffer_eq]

theorem Implements.take_write (data : List UInt8) :
    data.take (s.write data).2 = q.fitting data := by
  rw [write_snd, min_comm, ← List.take_take, List.take_length, h.remainingCapacity_eq,
    BoundedQueue.fitting]

theorem Implements.write (data : List UInt8) : (s.write data).1.Implements (q.put data) where
  toWellFormed := h.toWellFormed.write data
  capacity_eq := h.capacity_eq
  buffer_eq := by rw [write_fst_buffer_eq, h.take_write, h.buffer_eq, BoundedQueue.elems_put]

/-- The front of the stream; the bound by `_size` is that of the buffer. -/
theorem Implements.peekOutput_eq (len : ℕ) : s.peekOutput len = q.front len := by
  rw [peekOutput, BoundedQueue.front, h.size_eq, ← h.buffer_eq, min_comm, ← List.take_take,
    List.take_length]

theorem Implements.popOutput (len : ℕ) : (s.popOutput len).Implements (q.pop len) where
  toWellFormed := h.toWellFormed.popOutput len
  capacity_eq := h.capacity_eq
  buffer_eq := by
    rw [popOutput_buffer, BoundedQueue.elems_pop, ← h.buffer_eq, h.size_eq]
    rcases Nat.le_total len s.buffer.length with hle | hge
    · rw [min_eq_right hle]
    · rw [min_eq_left hge, List.drop_length, List.drop_of_length_le hge]

theorem Implements.endInput : s.endInput.Implements q where
  toWellFormed := h.toWellFormed.endInput
  capacity_eq := h.capacity_eq
  buffer_eq := h.buffer_eq

/-- **Every call is an operation of the queue.** -/
theorem Implements.step (c : ByteStreamCall) : (s.step c).Implements (c.onQueue q) := by
  cases c with
  | write data => exact h.write data
  | read len => exact h.popOutput len
  | peekOutput len => exact h
  | popOutput len => exact h.popOutput len
  | endInput => exact h.endInput

end Operations

/-! ## The flow of bytes -/

section Flow

variable (h : s.Implements q)

include h

/-- What `pop_output` takes off the front is the front of the queue. -/
theorem Implements.popped_popOutput (len : ℕ) : s.popped (.popOutput len) = q.front len := by
  have hlen : s.buffer.length - (s.popOutput len).buffer.length = min s.buffer.length len := by
    rw [popOutput_buffer, List.length_drop, h.size_eq]
    omega
  rw [← h.peekOutput_eq, peekOutput, h.size_eq, ← hlen]
  rfl

/-- **One call moves bytes in order**: what was held and what is accepted is what is popped and what
is held afterwards. -/
theorem Implements.flow (c : ByteStreamCall) :
    s.buffer ++ s.accepted c = s.popped c ++ (s.step c).buffer := by
  have hpop (len : ℕ) : s.buffer ++ [] = q.front len ++ (s.popOutput len).buffer := by
    rw [List.append_nil, (h.popOutput len).buffer_eq, q.front_append_elems_pop, h.buffer_eq]
  cases c with
  | write data => exact (write_fst_buffer_eq s data).symm
  | read len =>
    change s.buffer ++ [] = s.peekOutput len ++ (s.popOutput len).buffer
    rw [h.peekOutput_eq, hpop]
  | peekOutput len => exact List.append_nil _
  | popOutput len =>
    rw [h.popped_popOutput]
    exact hpop len
  | endInput => exact List.append_nil _

/-- `_nread` counts the bytes that are popped. -/
theorem Implements.step_nread (c : ByteStreamCall) :
    (s.step c).nread = s.nread + (s.popped c).length := by
  have hfront (len : ℕ) : min s.size len = (q.front len).length := by
    rw [BoundedQueue.front, List.length_take, h.size_eq, h.buffer_eq, min_comm]
  cases c with
  | write data => rfl
  | read len =>
    change s.nread + min s.size len = s.nread + (s.peekOutput len).length
    rw [h.peekOutput_eq, hfront]
  | peekOutput len => rfl
  | popOutput len =>
    rw [h.popped_popOutput, ← hfront]
    rfl
  | endInput => rfl

end Flow

end ByteStream

/-- **A byte stream is a bounded queue.** Whatever is called on a new stream, in whatever order:

* the stream implements the queue on which the same calls are made;
* the accepted prefixes of all writes are the bytes popped so far followed by the buffer, and the
  two running totals count the two;
* a write accepts `min(length, remaining_capacity())` bytes;
* the buffer never exceeds the capacity, so that the room and the size add up to it;
* a read returns what `peek_output` would have returned, which is the front of the buffer. -/
theorem byteStream_bounded_fifo (capacity : ℕ) (calls : List ByteStreamCall) :
    let s := Run.exec ByteStream.step (ByteStream.new capacity) calls
    let accepted := Run.collect ByteStream.step ByteStream.accepted (ByteStream.new capacity) calls
    let popped := Run.collect ByteStream.step ByteStream.popped (ByteStream.new capacity) calls
    s.Implements (Run.exec ByteStreamCall.onQueue
      (BoundedQueue.empty : BoundedQueue UInt8 capacity) calls) ∧
    accepted = popped ++ s.buffer ∧
    s.bytesWritten = accepted.length ∧ s.bytesRead = popped.length ∧
    (∀ data, (s.write data).2 = min data.length s.remainingCapacity) ∧
    s.bufferSize = s.buffer.length ∧ s.bufferSize ≤ capacity ∧
    s.remainingCapacity + s.bufferSize = capacity ∧
    s.bytesWritten = s.bytesRead + s.bufferSize ∧
    ∀ len, (s.read len).2 = s.peekOutput len ∧ s.peekOutput len = s.buffer.take len := by
  intro s accepted popped
  have hstep : ∀ (s : ByteStream) c, (∃ q : BoundedQueue UInt8 capacity, s.Implements q) →
      ∃ q : BoundedQueue UInt8 capacity, (s.step c).Implements q :=
    fun s c ⟨q, hq⟩ => ⟨c.onQueue q, hq.step c⟩
  have hnew : ∃ q : BoundedQueue UInt8 capacity, (ByteStream.new capacity).Implements q :=
    ⟨_, ByteStream.implements_new capacity⟩
  have hs : s.Implements (Run.exec ByteStreamCall.onQueue BoundedQueue.empty calls) :=
    Run.simulated (fun _ _ c h => h.step c) (ByteStream.implements_new capacity) calls
  have hflow : accepted = popped ++ s.buffer :=
    Run.conserved ByteStream.buffer hstep (fun s c ⟨_, hq⟩ => hq.flow c) hnew calls
  have hread : s.bytesRead = 0 + popped.length :=
    Run.counted ByteStream.nread hstep (fun s c ⟨_, hq⟩ => hq.step_nread c) hnew calls
  have hcount : s.bytesWritten = s.bytesRead + s.bufferSize := hs.nwritten_eq
  have hsize : s.bufferSize = s.buffer.length := hs.size_eq
  have hle : s.bufferSize ≤ capacity := hs.size_le.trans_eq hs.capacity_eq
  have hroom : s.remainingCapacity = capacity - s.bufferSize := by
    rw [ByteStream.remainingCapacity, hs.capacity_eq]
    rfl
  refine ⟨hs, hflow, ?_, by omega, ByteStream.write_snd s, hsize, hle, by omega, hcount, ?_⟩
  · rw [hflow, List.length_append]
    omega
  · intro len
    refine ⟨rfl, ?_⟩
    rw [hs.peekOutput_eq, hs.buffer_eq]
    rfl

end Sponge
