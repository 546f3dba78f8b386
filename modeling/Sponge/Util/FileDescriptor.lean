import Mathlib.Tactic
import Sponge.Foundations.Fallible
import Sponge.Util.Buffer

/-!
# File descriptors

A `FileDescriptor` is a handle to a file of the operating system. What the system answers to a call
is not decided here: every operation takes the answers as an argument, so that a statement about all
answers is a statement about every behaviour of the system. A negative answer is an error number and
becomes an exception, as `SystemCall` makes it.

The class counts its reads and writes and remembers that the end of the file was seen; an event loop
lives on these. Beside them the model records the bytes that reads have returned and the bytes that
the system has taken from writes.

## Main definitions

* `SystemException`, `systemCall`: the exceptions of programs that call the system
* `FileDescriptor` and its operations `read`, `write`, `close`, `shutdownWrite`

## Main results

* `FileDescriptor.read_eq_ok_iff`, `FileDescriptor.writeRound_eq_ok_iff`: when a call returns, and
  what it does
* `write_all_complete`: `write` passes on the whole buffer, whatever the pieces the system takes
-/

namespace Sponge

/-- What a program that calls the system can throw: a `unix_error` with the call and the error
number, or another exception. -/
inductive SystemException where
  | unixError (attempt : String) (errno : ℕ)
  | std (e : StdException)
  deriving DecidableEq, Repr

/-- **An exception that the system causes**: a call has failed, or it has returned what it never
should. -/
def SystemException.FromSystem (e : SystemException) : Prop :=
  (∃ attempt errno, e = .unixError attempt errno) ∨
    e = .std (.runtimeError "read() read more than requested") ∨
    e = .std (.runtimeError "write returned 0 given non-empty input buffer") ∨
    e = .std (.runtimeError "write wrote more than length of input buffer") ∨
    e = .std (.runtimeError "recvfrom (oversized datagram)") ∨
    e = .std (.runtimeError "datagram payload too big for sendmsg()")

/-- `SystemCall` of `util.hh`: the answer of the system, or an exception that names the call. -/
def systemCall {α : Type} (attempt : String) (answer : Except ℕ α) : Except SystemException α :=
  answer.mapError (.unixError attempt)

/-- An exception of the standard library, among those of programs that call the system. -/
def rethrow {α : Type} (result : Except StdException α) : Except SystemException α :=
  result.mapError .std

@[simp] theorem systemCall_ok {α : Type} (attempt : String) (a : α) :
    systemCall attempt (.ok a) = .ok a := rfl

@[simp] theorem systemCall_error {α : Type} (attempt : String) (errno : ℕ) :
    (systemCall attempt (.error errno) : Except _ α) = .error (.unixError attempt errno) := rfl

theorem systemCall_eq_ok_iff {α : Type} {attempt : String} {answer : Except ℕ α} {a : α} :
    systemCall attempt answer = .ok a ↔ answer = .ok a := by
  cases answer <;> simp

theorem fromSystem_of_systemCall {α : Type} {attempt : String} {answer : Except ℕ α}
    {e : SystemException} (h : systemCall attempt answer = .error e) : e.FromSystem := by
  cases answer with
  | error errno =>
    cases h
    exact Or.inl ⟨attempt, errno, rfl⟩
  | ok a => cases h

@[simp] theorem rethrow_ok {α : Type} (a : α) : rethrow (.ok a) = .ok a := rfl

@[simp] theorem rethrow_error {α : Type} (e : StdException) :
    (rethrow (.error e) : Except _ α) = .error (.std e) := rfl

theorem rethrow_eq_ok_iff {α : Type} {result : Except StdException α} {a : α} :
    rethrow result = .ok a ↔ result = .ok a := by
  cases result <;> simp

/-- A file descriptor: the fields of `FDWrapper` of `file_descriptor.hh` other than the number, and
what has passed through it. The counters are those of the class and wrap around. -/
structure FileDescriptor where
  eof : Bool := false
  closed : Bool := false
  readCount : UInt32 := 0
  writeCount : UInt32 := 0
  /-- the bytes that reads have returned -/
  given : List UInt8 := []
  /-- the bytes that the system has taken from writes -/
  taken : List UInt8 := []
  deriving DecidableEq, Repr

namespace FileDescriptor

/-- Count a read. -/
def registerRead (fd : FileDescriptor) : FileDescriptor :=
  { fd with readCount := fd.readCount + 1 }

/-- Count a write. -/
def registerWrite (fd : FileDescriptor) : FileDescriptor :=
  { fd with writeCount := fd.writeCount + 1 }

/-- The maximal size of a read. -/
def bufferSize : ℕ := 1024 * 1024

/-- Read up to `limit` bytes. No byte at all is the end of the file, unless none was asked for. -/
def read (fd : FileDescriptor) (limit : ℕ) (answer : Except ℕ (List UInt8)) :
    Except SystemException (FileDescriptor × List UInt8) := do
  let sizeToRead := min bufferSize limit
  let bytes ← systemCall "read" answer
  let fd := { fd with eof := fd.eof || (decide (0 < limit) && decide (bytes.length = 0)) }
  if sizeToRead < bytes.length then
    throw (.std (.runtimeError "read() read more than requested"))
  return ({ fd with given := fd.given ++ bytes }.registerRead, bytes)

/-- One round of `write`: the system takes some of the buffer, which is then removed from it. -/
def writeRound (fd : FileDescriptor) (buffer : BufferViewList) (answer : Except ℕ ℕ) :
    Except SystemException (FileDescriptor × BufferViewList × ℕ) := do
  let bytesWritten ← systemCall "writev" answer
  if bytesWritten = 0 ∧ buffer.size ≠ 0 then
    throw (.std (.runtimeError "write returned 0 given non-empty input buffer"))
  if buffer.size < bytesWritten then
    throw (.std (.runtimeError "write wrote more than length of input buffer"))
  let fd := { fd with taken := fd.taken ++ buffer.concatenate.take bytesWritten }.registerWrite
  let buffer ← rethrow (buffer.removePrefix bytesWritten)
  return (fd, buffer, bytesWritten)

/-- The loop of `write`, which runs at least once; `kernel i` is the answer to its call number `i`.
A round that does not end the loop takes at least one byte, so as many rounds as there are bytes
suffice. -/
def writeLoop (writeAll : Bool) : ℕ → (ℕ → Except ℕ ℕ) → FileDescriptor → BufferViewList → ℕ →
    Except SystemException (FileDescriptor × ℕ)
  | rounds, kernel, fd, buffer, total => do
    let (fd, buffer, bytesWritten) ← fd.writeRound buffer (kernel 0)
    match rounds with
    | 0 => return (fd, total + bytesWritten)
    | rounds + 1 =>
      if writeAll ∧ buffer.size ≠ 0 then
        writeLoop writeAll rounds (fun i => kernel (i + 1)) fd buffer (total + bytesWritten)
      else
        return (fd, total + bytesWritten)

/-- Write a buffer, all of it if `writeAll` is set; the second component is the number of bytes
written. -/
def write (fd : FileDescriptor) (buffer : BufferViewList) (writeAll : Bool)
    (kernel : ℕ → Except ℕ ℕ) : Except SystemException (FileDescriptor × ℕ) :=
  writeLoop writeAll buffer.size kernel fd buffer 0

/-- Close the descriptor. -/
def close (fd : FileDescriptor) (answer : Except ℕ Unit) :
    Except SystemException FileDescriptor := do
  systemCall "close" answer
  return { fd with eof := true, closed := true }

/-- `Socket::shutdown(SHUT_WR)`: nothing more will be written, which counts as a write. -/
def shutdownWrite (fd : FileDescriptor) (answer : Except ℕ Unit) :
    Except SystemException FileDescriptor := do
  systemCall "shutdown" answer
  return fd.registerWrite

open Fallible (bind_eq_ok_iff bind_eq_error_iff ite_throw_eq_ok_iff ite_throw_eq_error_iff)

variable {fd fd' : FileDescriptor}

/-! ## Single calls -/

/-- A counter that is advanced has changed, also where it wraps around. -/
theorem ne_add_one (count : UInt32) : count ≠ count + 1 := by
  intro h
  have hval := congrArg UInt32.toNat h
  have hlt := count.toNat_lt
  rw [UInt32.toNat_add] at hval
  simp at hval
  omega

theorem ne_add_two (count : UInt32) : count ≠ count + 1 + 1 := by
  intro h
  have hval := congrArg UInt32.toNat h
  have hlt := count.toNat_lt
  rw [UInt32.toNat_add, UInt32.toNat_add] at hval
  simp at hval
  omega

/-- **When a read returns, and what it does.** -/
theorem read_eq_ok_iff {limit : ℕ} {answer : Except ℕ (List UInt8)} {bytes : List UInt8} :
    fd.read limit answer = .ok (fd', bytes) ↔
      answer = .ok bytes ∧ bytes.length ≤ min bufferSize limit ∧
      fd' = { fd with
        eof := fd.eof || (decide (0 < limit) && decide (bytes.length = 0))
        readCount := fd.readCount + 1
        given := fd.given ++ bytes } := by
  simp only [read, bind_eq_ok_iff, ite_throw_eq_ok_iff, systemCall_eq_ok_iff, pure_eq_ok]
  constructor
  · rintro ⟨bytes', hanswer, hle, heq⟩
    cases heq
    exact ⟨hanswer, Nat.le_of_not_lt hle, rfl⟩
  · rintro ⟨hanswer, hle, rfl⟩
    exact ⟨bytes, hanswer, Nat.not_lt_of_le hle, rfl⟩

/-- The descriptor after a write of which the system took `bytes`. -/
def wrote (fd : FileDescriptor) (bytes : List UInt8) : FileDescriptor :=
  { fd with taken := fd.taken ++ bytes }.registerWrite

/-- **When a round returns, and what it does.** -/
theorem writeRound_eq_ok_iff {buffer rest : BufferViewList} {answer : Except ℕ ℕ} {n : ℕ} :
    fd.writeRound buffer answer = .ok (fd', rest, n) ↔
      answer = .ok n ∧ n ≤ buffer.size ∧ (n = 0 → buffer.size = 0) ∧
      buffer.removePrefix n = .ok rest ∧ fd' = fd.wrote (buffer.concatenate.take n) := by
  simp only [writeRound, bind_eq_ok_iff, ite_throw_eq_ok_iff, systemCall_eq_ok_iff,
    rethrow_eq_ok_iff, pure_eq_ok]
  constructor
  · rintro ⟨n', hanswer, hzero, hle, rest', hrest, heq⟩
    cases heq
    exact ⟨hanswer, Nat.le_of_not_lt hle, fun h0 => by_contra fun hne => hzero ⟨h0, hne⟩, hrest,
      rfl⟩
  · rintro ⟨hanswer, hle, hzero, hrest, rfl⟩
    exact ⟨n, hanswer, fun h => h.2 (hzero h.1), Nat.not_lt_of_le hle, rest, hrest, rfl⟩

theorem writeRound_rest {buffer rest : BufferViewList} {answer : Except ℕ ℕ} {n : ℕ}
    (h : fd.writeRound buffer answer = .ok (fd', rest, n)) :
    rest.concatenate = buffer.concatenate.drop n ∧ rest.size = buffer.size - n := by
  obtain ⟨-, hle, -, hrest, -⟩ := writeRound_eq_ok_iff.mp h
  obtain ⟨rest', hrest', hconcat⟩ := BufferViewList.exists_removePrefix_of_le hle
  obtain rfl : rest' = rest := Except.ok.inj (hrest'.symm.trans hrest)
  refine ⟨hconcat, ?_⟩
  rw [BufferViewList.size_eq_length_concatenate, hconcat, List.length_drop,
    BufferViewList.size_eq_length_concatenate]

/-- A single round, which is all that `write` does unless it is to write everything. -/
theorem write_once_eq_ok_iff {buffer : BufferViewList} {kernel : ℕ → Except ℕ ℕ} {n : ℕ} :
    fd.write buffer false kernel = .ok (fd', n) ↔
      kernel 0 = .ok n ∧ n ≤ buffer.size ∧ (n = 0 → buffer.size = 0) ∧
      fd' = fd.wrote (buffer.concatenate.take n) := by
  have hround : fd.write buffer false kernel =
      fd.writeRound buffer (kernel 0) >>= fun r => .ok (r.1, 0 + r.2.2) := by
    unfold write
    cases buffer.size <;> simp [writeLoop]
  rw [hround, bind_eq_ok_iff]
  constructor
  · rintro ⟨⟨fd₁, rest, m⟩, hok, heq⟩
    obtain ⟨hanswer, hle, hzero, -, rfl⟩ := writeRound_eq_ok_iff.mp hok
    cases heq
    rw [Nat.zero_add]
    exact ⟨hanswer, hle, hzero, rfl⟩
  · rintro ⟨hanswer, hle, hzero, rfl⟩
    obtain ⟨rest, hrest, -⟩ := BufferViewList.exists_removePrefix_of_le hle
    refine ⟨(_, rest, n), writeRound_eq_ok_iff.mpr ⟨hanswer, hle, hzero, hrest, rfl⟩, ?_⟩
    rw [Nat.zero_add]

/-- The same for a buffer in one piece. -/
theorem write_bytes_eq_ok_iff {bytes : List UInt8} {kernel : ℕ → Except ℕ ℕ} {n : ℕ} :
    fd.write [bytes] false kernel = .ok (fd', n) ↔
      kernel 0 = .ok n ∧ n ≤ bytes.length ∧ (n = 0 → bytes.length = 0) ∧
      fd' = fd.wrote (bytes.take n) := by
  rw [write_once_eq_ok_iff, BufferViewList.size_eq_length_concatenate]
  simp only [BufferViewList.concatenate, List.flatten_cons, List.flatten_nil, List.append_nil]

/-! ## Exceptions -/

variable {e : SystemException}

theorem fromSystem_of_read {limit : ℕ} {answer : Except ℕ (List UInt8)}
    (h : fd.read limit answer = .error e) : e.FromSystem := by
  simp only [read, bind_eq_error_iff, ite_throw_eq_error_iff] at h
  rcases h with hcall | ⟨bytes, -, ⟨-, rfl⟩ | ⟨-, hpure⟩⟩
  · exact fromSystem_of_systemCall hcall
  · exact Or.inr (Or.inl rfl)
  · cases hpure

theorem fromSystem_of_writeRound {buffer : BufferViewList} {answer : Except ℕ ℕ}
    (h : fd.writeRound buffer answer = .error e) : e.FromSystem := by
  simp only [writeRound, bind_eq_error_iff, ite_throw_eq_error_iff] at h
  rcases h with hcall | ⟨n, -, ⟨-, rfl⟩ | ⟨-, ⟨-, rfl⟩ | ⟨hle, hrest⟩⟩⟩
  · exact fromSystem_of_systemCall hcall
  · exact Or.inr (Or.inr (Or.inl rfl))
  · exact Or.inr (Or.inr (Or.inr (Or.inl rfl)))
  · -- as much as was written can be removed
    obtain ⟨rest, hremove, -⟩ := BufferViewList.exists_removePrefix_of_le (Nat.le_of_not_lt hle)
    rcases hrest with hfail | ⟨rest', -, hpure⟩
    · rw [hremove] at hfail
      cases hfail
    · cases hpure

theorem fromSystem_of_writeLoop {writeAll : Bool} {rounds : ℕ} {kernel : ℕ → Except ℕ ℕ}
    {buffer : BufferViewList} {total : ℕ}
    (h : writeLoop writeAll rounds kernel fd buffer total = .error e) : e.FromSystem := by
  induction rounds generalizing kernel fd buffer total with
  | zero =>
    rcases bind_eq_error_iff.mp h with hround | ⟨r, -, hpure⟩
    · exact fromSystem_of_writeRound hround
    · cases hpure
  | succ rounds ih =>
    rcases bind_eq_error_iff.mp h with hround | ⟨⟨fd₁, rest, n⟩, -, hrest⟩
    · exact fromSystem_of_writeRound hround
    · dsimp only at hrest
      split_ifs at hrest
      · exact ih hrest
      · cases hrest

theorem fromSystem_of_write {writeAll : Bool} {buffer : BufferViewList} {kernel : ℕ → Except ℕ ℕ}
    (h : fd.write buffer writeAll kernel = .error e) : e.FromSystem :=
  fromSystem_of_writeLoop h

theorem fromSystem_of_close {answer : Except ℕ Unit} (h : fd.close answer = .error e) :
    e.FromSystem := by
  rcases bind_eq_error_iff.mp h with hcall | ⟨_, -, hpure⟩
  · exact fromSystem_of_systemCall hcall
  · cases hpure

theorem fromSystem_of_shutdownWrite {answer : Except ℕ Unit}
    (h : fd.shutdownWrite answer = .error e) : e.FromSystem := by
  rcases bind_eq_error_iff.mp h with hcall | ⟨_, -, hpure⟩
  · exact fromSystem_of_systemCall hcall
  · cases hpure

/-! ## Writing everything -/

/-- The answers of the system to the calls of a `write` that passes on `size` bytes: each takes
something, or the buffer is empty and the only call takes nothing. -/
structure TakesAll (kernel : ℕ → Except ℕ ℕ) (size : ℕ) (counts : List ℕ) : Prop where
  answers : ∀ i n, counts[i]? = some n → kernel i = .ok n
  sum_eq : counts.sum = size
  pos : counts = [0] ∨ (counts ≠ [] ∧ ∀ n ∈ counts, 0 < n)

/-- The descriptor after writes of which the system took `bytes` in all. -/
def wroteAll (fd : FileDescriptor) (bytes : List UInt8) (calls : ℕ) : FileDescriptor :=
  { fd with taken := fd.taken ++ bytes, writeCount := fd.writeCount + UInt32.ofNat calls }

theorem wroteAll_wrote (fd : FileDescriptor) (bytes bytes' : List UInt8) (calls : ℕ) :
    (fd.wrote bytes).wroteAll bytes' calls = fd.wroteAll (bytes ++ bytes') (calls + 1) := by
  simp [wrote, wroteAll, registerWrite, UInt32.ofNat_add, UInt32.add_comm, UInt32.add_assoc]

/-- The answers in turn: the first takes something, the others the rest. -/
theorem takesAll_cons_iff {kernel : ℕ → Except ℕ ℕ} {size n : ℕ} {counts : List ℕ} :
    TakesAll kernel size (n :: counts) ↔
      kernel 0 = .ok n ∧ n ≤ size ∧ (n = 0 → size = 0) ∧
        if size - n = 0 then counts = []
        else TakesAll (fun i => kernel (i + 1)) (size - n) counts := by
  constructor
  · rintro ⟨hanswers, hsum, hpos⟩
    rw [List.sum_cons] at hsum
    refine ⟨hanswers 0 n rfl, by omega, ?_, ?_⟩
    · rintro rfl
      rcases hpos with hnil | ⟨-, hpos⟩
      · rw [(List.cons.inj hnil).2] at hsum
        exact hsum.symm
      · exact absurd (hpos 0 List.mem_cons_self) (Nat.lt_irrefl 0)
    · -- if there is a rest, then every answer takes something
      rcases hpos with hnil | ⟨-, hpos⟩
      · obtain ⟨rfl, rfl⟩ := List.cons.inj hnil
        simp [← hsum]
      · have hrest : ∀ m ∈ counts, 0 < m := fun m hm => hpos m (List.mem_cons_of_mem n hm)
        split_ifs with hend
        · have hzero : counts.sum = 0 := by omega
          rw [List.eq_nil_iff_forall_not_mem]
          intro m hm
          have hm0 := List.sum_eq_zero_iff_forall_eq_nat.mp hzero m hm
          exact absurd (hrest m hm) (by omega)
        · refine ⟨fun i m hm => hanswers (i + 1) m hm, by omega, Or.inr ⟨?_, hrest⟩⟩
          rintro rfl
          exact hend (by rw [← hsum]; simp)
  · rintro ⟨hanswer, hle, hzero, hrest⟩
    split_ifs at hrest with hend
    · subst hrest
      refine ⟨?_, by rw [List.sum_singleton]; omega, ?_⟩
      · rintro (_ | i) m hm
        · cases hm
          exact hanswer
        · cases hm
      · rcases Nat.eq_zero_or_pos n with rfl | hn
        · exact Or.inl rfl
        · exact Or.inr ⟨List.cons_ne_nil _ _, by simpa using hn⟩
    · obtain ⟨hanswers, hsum, hpos⟩ := hrest
      refine ⟨?_, by rw [List.sum_cons]; omega, Or.inr ⟨List.cons_ne_nil _ _, ?_⟩⟩
      · rintro (_ | i) m hm
        · cases hm
          exact hanswer
        · exact hanswers i m hm
      · rcases hpos with rfl | ⟨-, hpos⟩
        · exact absurd hsum.symm hend
        · exact List.forall_mem_cons.mpr ⟨by omega, hpos⟩

/-- One round of the loop of `write`, and what follows it. -/
theorem writeLoop_round {rounds : ℕ} {kernel : ℕ → Except ℕ ℕ} {buffer : BufferViewList}
    {total n : ℕ} (hrounds : buffer.size ≤ rounds) :
    writeLoop true rounds kernel fd buffer total = .ok (fd', n) ↔
      ∃ m rest, fd.writeRound buffer (kernel 0) =
          .ok (fd.wrote (buffer.concatenate.take m), rest, m) ∧
        if rest.size = 0 then fd' = fd.wrote (buffer.concatenate.take m) ∧ n = total + m
        else ∃ r, rounds = r + 1 ∧
          writeLoop true r (fun i => kernel (i + 1)) (fd.wrote (buffer.concatenate.take m)) rest
            (total + m) = .ok (fd', n) := by
  rw [writeLoop.eq_def, bind_eq_ok_iff]
  constructor
  · rintro ⟨⟨fd₁, rest, m⟩, hok, hcont⟩
    have hsize := (writeRound_rest hok).2
    obtain ⟨-, -, -, -, rfl⟩ := writeRound_eq_ok_iff.mp hok
    refine ⟨m, rest, hok, ?_⟩
    cases rounds with
    | zero =>
      cases hcont
      rw [if_pos (by omega)]
      exact ⟨rfl, rfl⟩
    | succ r =>
      dsimp only at hcont
      by_cases hend : rest.size = 0
      · rw [if_neg (by simp [hend])] at hcont
        cases hcont
        rw [if_pos hend]
        exact ⟨rfl, rfl⟩
      · rw [if_pos ⟨rfl, hend⟩] at hcont
        rw [if_neg hend]
        exact ⟨r, rfl, hcont⟩
  · rintro ⟨m, rest, hok, hcont⟩
    refine ⟨_, hok, ?_⟩
    by_cases hend : rest.size = 0
    · rw [if_pos hend] at hcont
      obtain ⟨rfl, rfl⟩ := hcont
      cases rounds with
      | zero => rfl
      | succ r => exact if_neg (by simp [hend])
    · rw [if_neg hend] at hcont
      obtain ⟨r, rfl, hloop⟩ := hcont
      exact (if_pos ⟨rfl, hend⟩).trans hloop

/-- **The loop of `write`** returns exactly if the answers take the whole buffer. -/
theorem writeLoop_eq_ok_iff {rounds : ℕ} {kernel : ℕ → Except ℕ ℕ} {buffer : BufferViewList}
    {total n : ℕ} (hrounds : buffer.size ≤ rounds) :
    writeLoop true rounds kernel fd buffer total = .ok (fd', n) ↔
      n = total + buffer.size ∧ ∃ counts, TakesAll kernel buffer.size counts ∧
        fd' = fd.wroteAll buffer.concatenate counts.length := by
  -- induction on the rounds that are left, for every buffer that they suffice for
  induction rounds using Nat.strong_induction_on generalizing kernel fd buffer total with
  | _ rounds ih =>
  have hlength := buffer.size_eq_length_concatenate
  rw [writeLoop_round hrounds]
  constructor
  · rintro ⟨m, rest, hok, hcont⟩
    obtain ⟨hanswer, hle, hzero, -, -⟩ := writeRound_eq_ok_iff.mp hok
    obtain ⟨hrest, hsize⟩ := writeRound_rest hok
    by_cases hend : rest.size = 0
    · rw [if_pos hend] at hcont
      obtain ⟨rfl, rfl⟩ := hcont
      refine ⟨by omega, [m], takesAll_cons_iff.mpr ⟨hanswer, hle, hzero, ?_⟩, ?_⟩
      · rw [if_pos (by omega)]
      · rw [List.take_of_length_le (by omega)]
        rfl
    · rw [if_neg hend] at hcont
      obtain ⟨r, rfl, hloop⟩ := hcont
      obtain ⟨hn, counts, htakes, rfl⟩ := (ih r r.lt_succ_self (by omega)).mp hloop
      refine ⟨by omega, m :: counts, takesAll_cons_iff.mpr ⟨hanswer, hle, hzero, ?_⟩, ?_⟩
      · rw [if_neg (by omega), ← hsize]
        exact htakes
      · rw [wroteAll_wrote, hrest, List.take_append_drop, List.length_cons]
  · rintro ⟨hn, counts, htakes, rfl⟩
    obtain ⟨m, counts, rfl⟩ : ∃ m rest, counts = m :: rest := by
      rcases htakes.pos with rfl | ⟨hne, -⟩
      · exact ⟨0, [], rfl⟩
      · exact List.exists_cons_of_ne_nil hne
    obtain ⟨hanswer, hle, hzero, hcounts⟩ := takesAll_cons_iff.mp htakes
    obtain ⟨rest, hremove, -⟩ := BufferViewList.exists_removePrefix_of_le hle
    have hok : fd.writeRound buffer (kernel 0) =
        .ok (fd.wrote (buffer.concatenate.take m), rest, m) :=
      writeRound_eq_ok_iff.mpr ⟨hanswer, hle, hzero, hremove, rfl⟩
    obtain ⟨hrest, hsize⟩ := writeRound_rest hok
    refine ⟨m, rest, hok, ?_⟩
    by_cases hend : rest.size = 0
    · rw [if_pos (by omega)] at hcounts
      subst hcounts
      rw [if_pos hend, List.take_of_length_le (by omega)]
      exact ⟨rfl, by omega⟩
    · rw [if_neg (by omega), ← hsize] at hcounts
      obtain ⟨r, rfl⟩ : ∃ r, rounds = r + 1 := Nat.exists_eq_succ_of_ne_zero (by omega)
      rw [if_neg hend]
      refine ⟨r, rfl, (ih r r.lt_succ_self (by omega)).mpr ⟨by omega, counts, hcounts, ?_⟩⟩
      rw [wroteAll_wrote, hrest, List.take_append_drop, List.length_cons]

end FileDescriptor

/-- **`write` passes on the whole buffer**, in whatever pieces the system takes it and however the
buffer is divided itself. If it is to write everything, then it returns exactly if the answers up to
some call each take something and together take all bytes, and an empty buffer costs one call; it
returns the size, and the system has taken every byte once and in order. Otherwise it makes one
call, and the system has taken as many bytes from the front as it returns. -/
theorem write_all_complete (fd : FileDescriptor) (buffer : BufferViewList)
    (kernel : ℕ → Except ℕ ℕ) (fd' : FileDescriptor) (n : ℕ) :
    (fd.write buffer true kernel = .ok (fd', n) ↔
      n = buffer.size ∧ ∃ counts : List ℕ,
        (∀ i m, counts[i]? = some m → kernel i = .ok m) ∧ counts.sum = buffer.size ∧
        (counts = [0] ∨ (counts ≠ [] ∧ ∀ m ∈ counts, 0 < m)) ∧
        fd' = { fd with
          taken := fd.taken ++ buffer.concatenate
          writeCount := fd.writeCount + UInt32.ofNat counts.length }) ∧
    (fd.write buffer false kernel = .ok (fd', n) ↔
      kernel 0 = .ok n ∧ n ≤ buffer.size ∧ (n = 0 → buffer.size = 0) ∧
        fd' = { fd with
          taken := fd.taken ++ buffer.concatenate.take n
          writeCount := fd.writeCount + 1 }) := by
  refine ⟨?_, FileDescriptor.write_once_eq_ok_iff⟩
  rw [FileDescriptor.write, FileDescriptor.writeLoop_eq_ok_iff le_rfl, Nat.zero_add]
  refine and_congr_right fun _ => exists_congr fun counts => ?_
  constructor
  · rintro ⟨⟨hanswers, hsum, hpos⟩, rfl⟩
    exact ⟨hanswers, hsum, hpos, rfl⟩
  · rintro ⟨hanswers, hsum, hpos, rfl⟩
    exact ⟨⟨hanswers, hsum, hpos⟩, rfl⟩

/-- Five bytes in two pieces, of which the system takes two and then three. -/
example :
    ({} : FileDescriptor).write [[1, 2, 3], [4, 5]] true (fun i => .ok (i + 2)) =
      .ok ({ taken := [1, 2, 3, 4, 5], writeCount := 2 }, 5) := by
  decide

end Sponge
