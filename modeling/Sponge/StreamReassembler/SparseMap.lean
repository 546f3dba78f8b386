import Mathlib.Tactic
import Sponge.Foundations.SparseReassembly
import Sponge.ByteStream.Queue
import Sponge.StreamReassembler.Memory

/-!
# The ring of the reassembler is a sparse map

`StreamReassembler` keeps the bytes that wait in a ring of `capacity` cells with a flag for each,
and counts them. Cells are reused as the window slides, and a push that the output has no room for
leaves a contiguous run behind. Whatever is pushed, consistent or not, the ring stands for a finite
map from the stream indices of the window to bytes, and every call does to the two what the abstract
reassembler does to its map and its queue.

## Main definitions

* `StreamReassembler.Refines r a`: the fields of `r` describe the abstract reassembler `a`
* `StreamReassembler.Represents r a`: the invariant of the runs, in terms of `pending`

## Main results

* `StreamReassembler.Represents.submit`, `StreamReassembler.Represents.pushSubstring`: one push
* `StreamReassembler.Represents.refines`: from the invariant to the fields
-/

namespace Sponge

/-- What a call does to the abstract reassembler. -/
def ReassemblerCall.onSparse {capacity : ℕ} (a : SparseReassembler UInt8 capacity) :
    ReassemblerCall → SparseReassembler UInt8 capacity
  | .pushSubstring data index _ => a.push data index
  | .read len => a.read len

namespace StreamReassembler

/-- The fields of the reassembler describe the abstract one: the base of the window is the number of
bytes written, the flag of a cell says whether its index is in the map, an occupied cell holds the
byte of its index, and every index is counted once. -/
structure Refines {capacity : ℕ} (r : StreamReassembler) (a : SparseReassembler UInt8 capacity) :
    Prop where
  output : r.output.Implements a.output
  rpos_eq : r.rpos = a.waiting.base
  bytesWritten_eq : r.output.bytesWritten = a.waiting.base
  bitMap_iff : ∀ i, a.waiting.base ≤ i → i < a.waiting.base + capacity →
    (r.bitMap[i % capacity]? = some true ↔ i ∈ a.waiting.keys)
  buffer_eq : ∀ i byte, a.waiting.get i = some byte → r.buffer[i % capacity]? = some byte
  unassembledBytes_eq : r.unassembledBytes = a.waiting.size

/-- The reassembler holds in its ring what waits in the abstract one, and in its output what is in
the queue. -/
structure Represents {capacity : ℕ} (r : StreamReassembler) (a : SparseReassembler UInt8 capacity) :
    Prop extends Accounted r where
  implements : r.output.Implements a.output
  capacity_eq : r.capacity = capacity
  base_eq : r.rpos = a.waiting.base
  pending_eq : r.pending = a.waiting.get

variable {r : StreamReassembler} {capacity : ℕ} {a : SparseReassembler UInt8 capacity}

theorem represents_new (h : 0 < capacity) :
    (new capacity).Represents (SparseReassembler.new : SparseReassembler UInt8 capacity) where
  toAccounted := accounted_new h
  implements := ByteStream.implements_new capacity
  capacity_eq := rfl
  base_eq := rfl
  pending_eq := funext (pending_new capacity)

/-! ## From the invariant to the fields -/

theorem WellFormed.getElem?_bitMap (h : r.WellFormed) (i : ℕ) :
    r.bitMap[i % r.capacity]? = some (RingBuffer.get r.capacity r.bitMap i false) := by
  rw [RingBuffer.get, List.getD_eq_getElem?_getD, List.getElem?_eq_getElem (h.mod_lt_bitMap i),
    Option.getD_some]

theorem WellFormed.getElem?_buffer (h : r.WellFormed) (i : ℕ) :
    r.buffer[i % r.capacity]? = some (RingBuffer.get r.capacity r.buffer i 0) := by
  rw [RingBuffer.get, List.getD_eq_getElem?_getD, List.getElem?_eq_getElem (h.mod_lt_buffer i),
    Option.getD_some]

theorem Represents.held_eq (h : r.Represents a) : r.held = a.waiting.keys := by
  ext i
  rw [mem_held_iff_pending, h.pending_eq, SparseMap.mem_keys]

/-- **What is represented is described by the fields.** -/
theorem Represents.refines (h : r.Represents a) : r.Refines a where
  output := h.implements
  rpos_eq := h.base_eq
  bytesWritten_eq := h.rpos_eq.symm.trans h.base_eq
  bitMap_iff := by
    intro i hlo hhi
    rw [← h.base_eq] at hlo hhi
    rw [← h.held_eq, mem_held, ← h.capacity_eq, h.getElem?_bitMap, Option.some_inj]
    exact (and_iff_right ⟨hlo, h.capacity_eq.symm ▸ hhi⟩).symm
  buffer_eq := by
    intro i byte hbyte
    rw [← h.pending_eq, pending] at hbyte
    split_ifs at hbyte
    rw [← h.capacity_eq, h.getElem?_buffer, hbyte]
  unassembledBytes_eq := by rw [h.unassembledBytes_eq, h.held_eq, SparseMap.size]

/-! ## One call -/

section Calls

variable (h : r.Represents a)

include h

theorem Represents.inserted_eq (data : List UInt8) (index : ℕ) :
    r.inserted data index = (a.waiting.insert data index).get := by
  rw [inserted, h.pending_eq, h.base_eq, h.capacity_eq]
  rfl

/-- What is delivered is the longest run, as far as the output has room. -/
theorem Represents.delivered_eq (data : List UInt8) (index : ℕ) :
    r.delivered data index = a.output.fitting (a.waiting.insert data index).run := by
  have hroom : a.output.room ≤ capacity := Nat.sub_le _ _
  rw [delivered, h.inserted_eq, h.base_eq, h.implements.remainingCapacity_eq,
    BoundedQueue.fitting, SparseMap.run, Reassembly.take_contiguous, min_eq_left hroom]
  rfl

/-- **Storing and submitting** is the push of the abstract reassembler. -/
theorem Represents.submit (data : List UInt8) (index : ℕ) :
    (r.store data index).submit.Represents (a.push data index) := by
  have hwf := h.toWellFormed
  have hstore := hwf.store data index
  have hdelivered := h.delivered_eq data index
  have hbuffer := hstore.submit_output_buffer
  have hrpos : (r.store data index).submit.rpos = r.rpos + (r.delivered data index).length := by
    rw [hstore.submit_eq, hwf.submission_store, store_rpos]
  have hcapacity : (r.store data index).submit.capacity = r.capacity := by
    rw [hstore.submit_eq, store_capacity]
  rw [hwf.submission_store, store_output, hdelivered] at hbuffer
  rw [hdelivered] at hrpos
  refine ⟨((h.toAccounted.store data index).submit).1, ⟨hstore.submit.output, ?_, ?_⟩, ?_, ?_, ?_⟩
  · rw [hstore.submit.output_capacity, hcapacity, h.capacity_eq]
  · -- the output takes what the queue takes
    rw [hbuffer, h.implements.buffer_eq]
    rfl
  · rw [hcapacity, h.capacity_eq]
  · -- and the window moves past it
    rw [hrpos, h.base_eq]
    rfl
  · -- what was freed is before the new base, and the cells that enter the window are free
    funext i
    rw [hstore.pending_submit, hwf.submission_store, hwf.pending_store, store_rpos, hdelivered,
      h.inserted_eq, h.base_eq]
    rfl

/-- What happens to the output apart from writes does not concern the ring. -/
theorem Represents.setOutput {out : ByteStream} {q : BoundedQueue UInt8 capacity}
    (hout : out.Implements q) (hnwritten : out.nwritten = r.output.nwritten)
    (eofIndex : Option ℕ) :
    Represents { r with output := out, eofIndex := eofIndex } { a with output := q } where
  capacity_pos := h.capacity_pos
  output := hout.toWellFormed
  output_capacity := hout.capacity_eq.trans h.capacity_eq.symm
  buffer_length := h.buffer_length
  bitMap_length := h.bitMap_length
  rpos_eq := h.rpos_eq.trans hnwritten.symm
  unassembledBytes_eq := h.unassembledBytes_eq
  implements := hout
  capacity_eq := h.capacity_eq
  base_eq := h.base_eq
  pending_eq := h.pending_eq

/-- Whether the output ends does not concern the invariant. -/
theorem Represents.finish (ended : Prop) [Decidable ended] (eofIndex : Option ℕ) :
    Represents { r with
      output := if ended then r.output.endInput else r.output
      eofIndex := eofIndex } a := by
  split_ifs
  · exact h.setOutput h.implements.endInput rfl eofIndex
  · exact h.setOutput h.implements rfl eofIndex

theorem Represents.pushSubstring (data : List UInt8) (index : ℕ) (eof : Bool) :
    (r.pushSubstring data index eof).Represents (a.push data index) :=
  (h.submit data index).finish _ _

theorem Represents.read (len : ℕ) :
    Represents { r with output := (r.output.read len).1 } (a.read len) :=
  h.setOutput (h.implements.popOutput len) rfl r.eofIndex

/-- **One call** does to the ring and the output what it does to the map and the queue. -/
theorem Represents.step (call : ReassemblerCall) :
    (r.step call).Represents (call.onSparse a) := by
  cases call with
  | pushSubstring data index eof => exact h.pushSubstring data index eof
  | read len => exact h.read len

end Calls

end StreamReassembler

/-- **The reassembler refines the sparse map** on every run of arbitrary pushes and reads, with
stream positions that are natural numbers. -/
theorem streamReassembler_refines {capacity : ℕ} (hcap : 1 ≤ capacity)
    (calls : List ReassemblerCall) :
    (Run.exec StreamReassembler.step (StreamReassembler.new capacity) calls).Refines
      (Run.exec ReassemblerCall.onSparse (SparseReassembler.new : SparseReassembler UInt8 capacity)
        calls) := by
  have hrun : (Run.exec StreamReassembler.step (StreamReassembler.new capacity) calls).Represents
      (Run.exec ReassemblerCall.onSparse SparseReassembler.new calls) :=
    Run.simulated (fun _ _ call h => h.step call) (StreamReassembler.represents_new hcap) calls
  exact hrun.refines

end Sponge
