import Mathlib.Tactic
import Sponge.Foundations.Checked
import Sponge.StreamReassembler

/-!
# The accesses of the reassembler

`push_substring` takes stream indices modulo the capacity, and indexes its ring, the substring and
the string it submits without a check. `pushSubstringChecked` is the same function with every modulo
and every access checked. In a well-formed reassembler all of them go well, and the result is that
of the plain function; without capacity the loop over the occupied cells divides by zero before it
looks at anything else.

## Main definitions

* `StreamReassembler.pushSubstringChecked`: `push_substring` with its accesses checked

## Main results

* `StreamReassembler.WellFormed.pushSubstringChecked_eq`: nothing goes wrong
* `StreamReassembler.pushSubstringChecked_of_capacity_eq_zero`: the division by zero
-/

namespace Sponge

open Checked (Fault)

namespace StreamReassembler

/-! ## The checked function -/

/-- One round of the storing loop. -/
def storeByteChecked (data : List UInt8) (index : ℕ) (r : StreamReassembler) (i : ℕ) :
    Except Fault StreamReassembler := do
  let bi ← Checked.mod i r.capacity
  let byte ← Checked.read data (i - index)
  let buffer ← Checked.write r.buffer bi byte
  let occupied ← Checked.read r.bitMap bi
  if occupied then
    return { r with buffer := buffer }
  else
    let bitMap ← Checked.write r.bitMap bi true
    return { r with
      buffer := buffer, bitMap := bitMap, unassembledBytes := r.unassembledBytes + 1 }

/-- The storing loop. -/
def storeChecked (r : StreamReassembler) (data : List UInt8) (index : ℕ) :
    Except Fault StreamReassembler :=
  let startIndex := max r.rpos index
  let endIndex := min (r.rpos + r.capacity) (index + data.length)
  (List.range' startIndex (endIndex - startIndex)).foldlM (storeByteChecked data index) r

/-- The loop over the occupied cells: the cell is looked at before the end of the window is, so that
there is one access more than there are cells. -/
def availLoopChecked (r : StreamReassembler) : ℕ → ℕ → Except Fault ℕ
  | 0, availEnd => return availEnd
  | n + 1, availEnd => do
    let bi ← Checked.mod availEnd r.capacity
    let occupied ← Checked.read r.bitMap bi
    if occupied && decide (availEnd < r.rpos + r.capacity) then
      availLoopChecked r n (availEnd + 1)
    else return availEnd

/-- The string that is submitted, written byte by byte. -/
def submittedChecked (r : StreamReassembler) (availEnd : ℕ) : Except Fault (List UInt8) :=
  (List.range' r.rpos (availEnd - r.rpos)).foldlM
    (fun dataSubmit i => do
      let bi ← Checked.mod i r.capacity
      let byte ← Checked.read r.buffer bi
      Checked.write dataSubmit (i - r.rpos) byte)
    (List.replicate (availEnd - r.rpos) 0)

/-- The cells of the bytes that were written are freed. -/
def freeChecked (r : StreamReassembler) (writtenBytes : ℕ) : Except Fault (List Bool) :=
  (List.range' r.rpos writtenBytes).foldlM
    (fun bitMap i => do
      let bi ← Checked.mod i r.capacity
      Checked.write bitMap bi false)
    r.bitMap

def submitChecked (r : StreamReassembler) : Except Fault StreamReassembler := do
  let availEnd ← r.availLoopChecked (r.capacity + 1) r.rpos
  if r.rpos < availEnd then
    let dataSubmit ← r.submittedChecked availEnd
    let (output, writtenBytes) := r.output.write dataSubmit
    let bitMap ← r.freeChecked writtenBytes
    return { r with
      output := output
      bitMap := bitMap
      rpos := r.rpos + writtenBytes
      unassembledBytes := r.unassembledBytes - writtenBytes }
  else return r

/-- `push_substring` with every modulo and every access checked. -/
def pushSubstringChecked (r : StreamReassembler) (data : List UInt8) (index : ℕ) (eof : Bool) :
    Except Fault StreamReassembler := do
  let r ← r.storeChecked data index
  let r ← r.submitChecked
  return r.finish (index + data.length) eof

/-! ## Nothing goes wrong -/

variable {r : StreamReassembler} {data : List UInt8} {index : ℕ}

section Rings

variable (h : r.WellFormed)

include h

/-- One round of the storing loop goes well if its byte is one of the substring. -/
theorem WellFormed.storeByteChecked_eq {i : ℕ} (hi : i - index < data.length) :
    storeByteChecked data index r i = .ok (StreamReassembler.storeByte data index r i) := by
  unfold storeByteChecked
  rw [Checked.mod_bind h.capacity_pos.ne', Checked.read_bind hi 0,
    Checked.write_bind (h.mod_lt_buffer i), Checked.read_bind (h.mod_lt_bitMap i) false]
  have hget : r.bitMap.getD (i % r.capacity) false = RingBuffer.get r.capacity r.bitMap i false :=
    rfl
  rw [hget, StreamReassembler.storeByte]
  cases hbit : RingBuffer.get r.capacity r.bitMap i false with
  | true =>
    -- the flag is set already
    have hput := RingBuffer.put_get h.capacity_pos h.bitMap_length i false
    rw [hbit] at hput
    rw [hput]
    rfl
  | false =>
    rw [if_neg Bool.false_ne_true, Checked.write_bind (h.mod_lt_bitMap i)]
    rfl

theorem WellFormed.storeChecked_eq : r.storeChecked data index = .ok (r.store data index) := by
  refine Checked.foldlM_eq_ok (I := WellFormed) (fun r' i hi h' => ?_) h
  have hi := List.mem_range'_1.mp hi
  exact ⟨h'.storeByteChecked_eq (by omega), h'.storeByte data index i⟩

/-- The loop over the occupied cells goes well, and its last access is past the window. -/
theorem WellFormed.availLoopChecked_eq {n a : ℕ} (hn : a + n = r.rpos + r.capacity) :
    r.availLoopChecked (n + 1) a = .ok (r.availLoop n a) := by
  induction n generalizing a with
  | zero =>
    unfold availLoopChecked
    rw [Checked.mod_bind h.capacity_pos.ne', Checked.read_bind (h.mod_lt_bitMap a) false,
      if_neg (by simp; omega)]
    rfl
  | succ n ih =>
    rw [availLoopChecked, Checked.mod_bind h.capacity_pos.ne',
      Checked.read_bind (h.mod_lt_bitMap a) false, availLoop]
    have hget : r.bitMap.getD (a % r.capacity) false = RingBuffer.get r.capacity r.bitMap a false :=
      rfl
    rw [hget]
    split_ifs
    · exact ih (by omega)
    · rfl

theorem WellFormed.submittedChecked_eq (availEnd : ℕ) :
    r.submittedChecked availEnd = .ok ((List.range' r.rpos (availEnd - r.rpos)).map
      fun i => RingBuffer.get r.capacity r.buffer i 0) := by
  have hloop := Checked.foldl_set_range' (fun i => RingBuffer.get r.capacity r.buffer i 0) 0 r.rpos
    (availEnd - r.rpos) 0
  rw [Nat.add_zero, List.replicate_zero, List.append_nil] at hloop
  rw [← hloop]
  refine Checked.foldlM_eq_ok (I := fun dataSubmit => dataSubmit.length = availEnd - r.rpos)
    (fun dataSubmit i hi hlen => ?_) List.length_replicate
  have hi := List.mem_range'_1.mp hi
  refine ⟨?_, by simpa using hlen⟩
  rw [Checked.mod_bind h.capacity_pos.ne', Checked.read_bind (h.mod_lt_buffer i) 0, Checked.write,
    if_pos (by omega)]
  rfl

theorem WellFormed.freeChecked_eq (writtenBytes : ℕ) :
    r.freeChecked writtenBytes =
      .ok (RingBuffer.fill r.capacity r.bitMap (fun _ => false) r.rpos writtenBytes) := by
  refine Checked.foldlM_eq_ok (I := fun bitMap => bitMap.length = r.capacity)
    (fun bitMap i _ hlen => ⟨?_, by simpa using hlen⟩) h.bitMap_length
  rw [Checked.mod_bind h.capacity_pos.ne', Checked.write, if_pos]
  · rfl
  · rw [hlen]
    exact Nat.mod_lt i h.capacity_pos

theorem WellFormed.submitChecked_eq : r.submitChecked = .ok r.submit := by
  unfold submitChecked StreamReassembler.submit
  rw [h.availLoopChecked_eq rfl]
  generalize r.availLoop r.capacity r.rpos = availEnd
  change (if r.rpos < availEnd then _ else _) = Except.ok (if r.rpos < availEnd then _ else _)
  by_cases hmore : r.rpos < availEnd
  · rw [if_pos hmore, if_pos hmore, h.submittedChecked_eq]
    change (r.freeChecked _ >>= fun _ => _) = _
    rw [h.freeChecked_eq]
    rfl
  · rw [if_neg hmore, if_neg hmore]
    rfl

/-- **Nothing goes wrong** in a well-formed reassembler, and the checks change nothing. -/
theorem WellFormed.pushSubstringChecked_eq (eof : Bool) :
    r.pushSubstringChecked data index eof = .ok (r.pushSubstring data index eof) := by
  unfold pushSubstringChecked
  rw [h.storeChecked_eq]
  change ((r.store data index).submitChecked >>= fun _ => _) = _
  rw [(h.store data index).submitChecked_eq]
  rfl

end Rings

/-- **Without capacity** a push divides by zero: nothing is stored, and the first look at a cell is
at the remainder of a division by zero. -/
theorem pushSubstringChecked_of_capacity_eq_zero (h : r.capacity = 0) (eof : Bool) :
    r.pushSubstringChecked data index eof = .error .divisionByZero := by
  have hempty : min (r.rpos + r.capacity) (index + data.length) - max r.rpos index = 0 := by omega
  have hstore : r.storeChecked data index = .ok r := by
    unfold storeChecked
    dsimp only
    rw [hempty]
    rfl
  have hsubmit : r.submitChecked = .error .divisionByZero := by
    unfold submitChecked availLoopChecked
    rw [h, Checked.mod_zero_bind]
    rfl
  unfold pushSubstringChecked
  rw [hstore]
  change (r.submitChecked >>= fun _ => _) = _
  rw [hsubmit]
  rfl

end StreamReassembler

end Sponge
