import Mathlib.Tactic

/-!
# The byte stream

`ByteStream` is a bounded in-memory pipe: bytes are written on the input side, as many as fit, and
read in order on the output side. The model keeps the fields of the class, the counter `_size`
beside the deque included; that the two agree is part of `WellFormed`, which every operation
preserves. The counters are stream positions and are natural numbers here.

## Main definitions

* `ByteStream` and its operations `write`, `peekOutput`, `popOutput`, `read`, `endInput`
* `ByteStream.WellFormed`: the counters describe the buffer, and the buffer fits the capacity

## Main results

* `ByteStream.WellFormed.write`, `ByteStream.WellFormed.popOutput`: the operations keep a stream
  well formed
-/

namespace Sponge

/-- An in-order byte stream: `ByteStream` of `byte_stream.hh`. -/
structure ByteStream where
  buffer : List UInt8
  capacity : ℕ
  size : ℕ
  nwritten : ℕ
  nread : ℕ
  inputEnded : Bool
  error : Bool
  deriving DecidableEq, Repr

namespace ByteStream

/-- A stream with room for `capacity` bytes. -/
def new (capacity : ℕ) : ByteStream where
  buffer := []
  capacity := capacity
  size := 0
  nwritten := 0
  nread := 0
  inputEnded := false
  error := false

/-- The room left: `_capacity - _size`. -/
def remainingCapacity (s : ByteStream) : ℕ :=
  s.capacity - s.size

/-- Write as many bytes of `data` as fit; the second component is their number. -/
def write (s : ByteStream) (data : List UInt8) : ByteStream × ℕ :=
  let dataToWrite := data.take s.remainingCapacity
  ({ s with
      buffer := s.buffer ++ dataToWrite
      nwritten := s.nwritten + dataToWrite.length
      size := s.size + dataToWrite.length },
    dataToWrite.length)

/-- The next `len` bytes of the stream, or all of them when there are fewer. -/
def peekOutput (s : ByteStream) (len : ℕ) : List UInt8 :=
  s.buffer.take (min s.size len)

/-- Remove `len` bytes from the output side, or all of them when there are fewer. -/
def popOutput (s : ByteStream) (len : ℕ) : ByteStream :=
  let lenToPop := min s.size len
  { s with
    buffer := s.buffer.drop lenToPop
    nread := s.nread + lenToPop
    size := s.size - lenToPop }

/-- Copy and then pop the next `len` bytes. -/
def read (s : ByteStream) (len : ℕ) : ByteStream × List UInt8 :=
  (s.popOutput len, s.peekOutput len)

/-- The writer has finished. -/
def endInput (s : ByteStream) : ByteStream :=
  { s with inputEnded := true }

/-- The stream suffered an error. -/
def setError (s : ByteStream) : ByteStream :=
  { s with error := true }

def bufferSize (s : ByteStream) : ℕ := s.size

def bufferEmpty (s : ByteStream) : Bool := s.size == 0

/-- The output has reached the ending: the input has ended and nothing is buffered. -/
def eof (s : ByteStream) : Bool := s.inputEnded && s.bufferEmpty

def bytesWritten (s : ByteStream) : ℕ := s.nwritten

def bytesRead (s : ByteStream) : ℕ := s.nread

/-- The counters describe the buffer, and the buffer fits the capacity. -/
structure WellFormed (s : ByteStream) : Prop where
  size_eq : s.size = s.buffer.length
  size_le : s.size ≤ s.capacity
  nwritten_eq : s.nwritten = s.nread + s.size

variable {s : ByteStream}

theorem wellFormed_new (capacity : ℕ) : (new capacity).WellFormed :=
  ⟨rfl, Nat.zero_le _, rfl⟩

section Fields

variable (s) (data : List UInt8) (len : ℕ)

@[simp] theorem write_fst_buffer :
    (s.write data).1.buffer = s.buffer ++ data.take s.remainingCapacity := rfl

@[simp] theorem write_fst_capacity : (s.write data).1.capacity = s.capacity := rfl

@[simp] theorem write_fst_nread : (s.write data).1.nread = s.nread := rfl

@[simp] theorem write_fst_inputEnded : (s.write data).1.inputEnded = s.inputEnded := rfl

@[simp] theorem write_fst_error : (s.write data).1.error = s.error := rfl

@[simp] theorem write_fst_size : (s.write data).1.size = s.size + (s.write data).2 := rfl

@[simp] theorem write_fst_nwritten : (s.write data).1.nwritten = s.nwritten + (s.write data).2 :=
  rfl

theorem write_snd : (s.write data).2 = min data.length s.remainingCapacity := by
  simp [write, min_comm]

/-- The buffer grows by the bytes that are accepted. -/
theorem write_fst_buffer_eq :
    (s.write data).1.buffer = s.buffer ++ data.take (s.write data).2 := by
  rw [write_fst_buffer, write_snd, min_comm, ← List.take_take, List.take_length]

/-- A write of which nothing is accepted leaves the stream as it is. -/
theorem write_fst_of_snd_eq_zero (h : (s.write data).2 = 0) : (s.write data).1 = s := by
  have hnil : data.take s.remainingCapacity = [] := List.length_eq_zero_iff.mp h
  simp [write, hnil]

@[simp] theorem popOutput_buffer :
    (s.popOutput len).buffer = s.buffer.drop (min s.size len) := rfl

@[simp] theorem popOutput_capacity : (s.popOutput len).capacity = s.capacity := rfl

@[simp] theorem popOutput_nwritten : (s.popOutput len).nwritten = s.nwritten := rfl

@[simp] theorem popOutput_nread : (s.popOutput len).nread = s.nread + min s.size len := rfl

@[simp] theorem popOutput_size : (s.popOutput len).size = s.size - min s.size len := rfl

@[simp] theorem endInput_buffer : s.endInput.buffer = s.buffer := rfl

@[simp] theorem endInput_capacity : s.endInput.capacity = s.capacity := rfl

@[simp] theorem endInput_nwritten : s.endInput.nwritten = s.nwritten := rfl

@[simp] theorem endInput_nread : s.endInput.nread = s.nread := rfl

@[simp] theorem endInput_inputEnded : s.endInput.inputEnded = true := rfl

@[simp] theorem endInput_error : s.endInput.error = s.error := rfl

end Fields

theorem eof_iff : s.eof = true ↔ s.inputEnded = true ∧ s.size = 0 := by
  simp [eof, bufferEmpty]

/-- Writing keeps a stream well formed: what is accepted fits the room that was left. -/
theorem WellFormed.write (h : s.WellFormed) (data : List UInt8) : (s.write data).1.WellFormed := by
  have hle := h.size_le
  have hn := write_snd s data
  have hrem : s.remainingCapacity = s.capacity - s.size := rfl
  refine ⟨?_, ?_, ?_⟩
  · rw [write_fst_size, write_fst_buffer, List.length_append, h.size_eq]
    rfl
  · rw [write_fst_size, write_fst_capacity]
    omega
  · rw [write_fst_nwritten, write_fst_size, write_fst_nread, h.nwritten_eq]
    omega

theorem WellFormed.popOutput (h : s.WellFormed) (len : ℕ) : (s.popOutput len).WellFormed := by
  have hle := h.size_le
  refine ⟨?_, ?_, ?_⟩
  · rw [popOutput_size, popOutput_buffer, List.length_drop, h.size_eq]
  · rw [popOutput_size, popOutput_capacity]
    omega
  · rw [popOutput_nwritten, popOutput_nread, popOutput_size, h.nwritten_eq]
    omega

theorem WellFormed.endInput (h : s.WellFormed) : s.endInput.WellFormed :=
  ⟨h.size_eq, h.size_le, h.nwritten_eq⟩

theorem WellFormed.setError (h : s.WellFormed) : s.setError.WellFormed :=
  ⟨h.size_eq, h.size_le, h.nwritten_eq⟩

theorem WellFormed.buffer_eq_nil_iff (h : s.WellFormed) : s.buffer = [] ↔ s.size = 0 := by
  rw [h.size_eq, List.length_eq_zero_iff]

end ByteStream

end Sponge
