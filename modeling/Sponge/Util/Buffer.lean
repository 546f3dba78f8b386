import Mathlib.Tactic
import Sponge.Foundations.Rope
import Sponge.Util.NetParser

/-!
# Buffers and their storage

A `Buffer` of `buffer.hh` is a reference to a string and an offset into it. Discarding bytes moves
the offset; once the whole string is discarded the storage is released, while the offset stays.
Elsewhere in this development a buffer is the bytes it holds; here the class is modelled with its
fields, and `SharedBuffer.map_str_removePrefix` says that discarding bytes is the same on both.

A `BufferList` is a queue of buffers, a `BufferViewList` a queue of views. Both discard bytes with
the same loop, which is that of `Rope.discard`.

## Main definitions

* `SharedBuffer`: a buffer with its storage; its offset never exceeds the storage
* `SharedBufferList`, `BufferViewList`: the two discontiguous strings

## Main results

* `SharedBuffer.map_str_removePrefix`: a buffer with its storage refines the bytes it holds
* `removePrefix_discards`: discarding from either kind of discontiguous string is `List.drop`
-/

namespace Sponge

/-- A reference-counted read-only string that can discard bytes from the front: `Buffer` of
`buffer.hh`. Without storage it is the empty string, whatever its offset. -/
structure SharedBuffer where
  storage : Option (List UInt8)
  startingOffset : ℕ
  startingOffset_le : ∀ bytes ∈ storage, startingOffset ≤ bytes.length
  deriving DecidableEq

namespace SharedBuffer

/-- The buffer that takes ownership of a string. -/
def ofString (str : List UInt8) : SharedBuffer where
  storage := some str
  startingOffset := 0
  startingOffset_le := fun _ _ => Nat.zero_le _

/-- The bytes from the offset on. -/
def str (buffer : SharedBuffer) : List UInt8 :=
  match buffer.storage with
  | none => []
  | some bytes => bytes.drop buffer.startingOffset

def size (buffer : SharedBuffer) : ℕ := buffer.str.length

theorem str_eq (buffer : SharedBuffer) :
    buffer.str = (buffer.storage.getD []).drop buffer.startingOffset := by
  unfold str
  cases buffer.storage with
  | none => exact List.drop_nil.symm
  | some bytes => rfl

/-- What can be discarded lies within the storage. -/
theorem startingOffset_add_le {buffer : SharedBuffer} {n : ℕ} (h : n ≤ buffer.str.length) :
    ∀ bytes ∈ buffer.storage, buffer.startingOffset + n ≤ bytes.length := by
  intro bytes hbytes
  have hle := buffer.startingOffset_le bytes hbytes
  rw [Option.mem_def] at hbytes
  rw [str, hbytes, List.length_drop] at h
  omega

/-- Discard the first `n` bytes. -/
def removePrefix (buffer : SharedBuffer) (n : ℕ) : Except StdException SharedBuffer :=
  if h : n > buffer.str.length then
    .error (.outOfRange "Buffer::remove_prefix")
  else if buffer.storage.map List.length = some (buffer.startingOffset + n) then
    -- the last byte is gone: the storage is released, the offset has moved all the same
    .ok ⟨none, buffer.startingOffset + n, fun _ hnone => by cases hnone⟩
  else
    .ok ⟨buffer.storage, buffer.startingOffset + n, startingOffset_add_le (Nat.le_of_not_lt h)⟩

/-- **A buffer with its storage refines the bytes it holds.** -/
theorem map_str_removePrefix (buffer : SharedBuffer) (n : ℕ) :
    (buffer.removePrefix n).map str = Buffer.removePrefix buffer.str n := by
  unfold removePrefix Buffer.removePrefix
  split_ifs with hlt hend
  · rfl
  · -- everything is discarded
    obtain ⟨bytes, hbytes, hlen⟩ := Option.map_eq_some_iff.mp hend
    change Except.ok [] = Except.ok _
    rw [str_eq, hbytes, List.drop_drop, Option.getD_some, List.drop_of_length_le hlen.le]
  · change Except.ok _ = Except.ok _
    rw [str_eq, str_eq, List.drop_drop]

theorem exists_removePrefix_of_le {buffer : SharedBuffer} {n : ℕ} (h : n ≤ buffer.str.length) :
    ∃ buffer', buffer.removePrefix n = .ok buffer' ∧ buffer'.str = buffer.str.drop n := by
  have hmap := buffer.map_str_removePrefix n
  rw [Buffer.removePrefix, if_neg (Nat.not_lt_of_le h)] at hmap
  cases hok : buffer.removePrefix n with
  | error e =>
    rw [hok] at hmap
    cases hmap
  | ok buffer' =>
    rw [hok] at hmap
    exact ⟨buffer', rfl, Except.ok.inj hmap⟩

end SharedBuffer

/-- A discontiguous string: the buffers of a `BufferList`. -/
abbrev SharedBufferList := List SharedBuffer

namespace SharedBufferList

/-- The bytes that the buffers hold. -/
def contents (buffers : SharedBufferList) : BufferList := buffers.map SharedBuffer.str

def concatenate (buffers : SharedBufferList) : List UInt8 := buffers.contents.concatenate

def size (buffers : SharedBufferList) : ℕ :=
  buffers.foldl (fun ret buf => ret + buf.size) 0

/-- Discard the first `n` bytes: buffers that are used up are removed, the first one that is not is
shortened. -/
def removePrefix (buffers : SharedBufferList) (n : ℕ) : Except StdException SharedBufferList :=
  Rope.discard SharedBuffer.str SharedBuffer.removePrefix
    (.outOfRange "BufferList::remove_prefix") buffers n

theorem concatenate_eq_concat (buffers : SharedBufferList) :
    buffers.concatenate = Rope.concat SharedBuffer.str buffers :=
  List.flatMap_def.symm

theorem size_eq_length_concatenate (buffers : SharedBufferList) :
    buffers.size = buffers.concatenate.length := by
  have hsize : buffers.contents.size = buffers.size := List.foldl_map
  rw [← hsize]
  exact BufferList.size_eq_length_concatenate buffers.contents

end SharedBufferList

/-- A non-owning view of a discontiguous string, in pieces. -/
abbrev BufferViewList := List (List UInt8)

namespace BufferViewList

/-- The bytes in view, which `as_iovecs` passes to the system piece by piece. -/
def concatenate (views : BufferViewList) : List UInt8 := views.flatten

def size (views : BufferViewList) : ℕ :=
  views.foldl (fun ret buf => ret + buf.length) 0

/-- Discard the first `n` bytes. -/
def removePrefix (views : BufferViewList) (n : ℕ) : Except StdException BufferViewList :=
  Rope.discard id (fun view n => .ok (view.drop n))
    (.outOfRange "BufferListView::remove_prefix") views n

theorem concatenate_eq_concat (views : BufferViewList) :
    views.concatenate = Rope.concat id views :=
  List.flatMap_id.symm

theorem size_eq_length_concatenate (views : BufferViewList) :
    views.size = views.concatenate.length :=
  BufferList.size_eq_length_concatenate views

/-- What is left of the views after `n` bytes, if there are as many. -/
theorem exists_removePrefix_of_le {views : BufferViewList} {n : ℕ} (h : n ≤ views.size) :
    ∃ rest : BufferViewList, views.removePrefix n = .ok rest ∧
      rest.concatenate = views.concatenate.drop n := by
  rw [size_eq_length_concatenate, concatenate_eq_concat] at h
  simp only [concatenate_eq_concat]
  exact Rope.exists_discard_of_le _ (fun view n _ => ⟨view.drop n, rfl, rfl⟩) h

end BufferViewList

/-- **Discarding a prefix of a discontiguous string is `List.drop`**, for lists of buffers, whatever
has been discarded from each of them before, and for lists of views: it throws exactly if `n`
exceeds the size, and otherwise it removes the first `n` bytes. -/
theorem removePrefix_discards (n : ℕ) :
    (∀ buffers : SharedBufferList,
      ((∃ e, buffers.removePrefix n = .error e) ↔ buffers.size < n) ∧
      (n ≤ buffers.size → ∃ rest : SharedBufferList, buffers.removePrefix n = .ok rest ∧
        rest.concatenate = buffers.concatenate.drop n ∧ rest.size = buffers.size - n)) ∧
    ∀ views : BufferViewList,
      ((∃ e, views.removePrefix n = .error e) ↔ views.size < n) ∧
      (n ≤ views.size → ∃ rest : BufferViewList, views.removePrefix n = .ok rest ∧
        rest.concatenate = views.concatenate.drop n ∧ rest.size = views.size - n) := by
  constructor
  · intro buffers
    simp only [SharedBufferList.size_eq_length_concatenate, SharedBufferList.concatenate_eq_concat]
    exact Rope.discard_spec
      (fun _ _ hlt => SharedBuffer.exists_removePrefix_of_le (Nat.le_of_lt hlt)) buffers n
  · intro views
    simp only [BufferViewList.size_eq_length_concatenate, BufferViewList.concatenate_eq_concat]
    exact Rope.discard_spec (fun view n _ => ⟨view.drop n, rfl, rfl⟩) views n

/-- The theorem on an empty buffer, one of which a byte is gone already and which is used up
exactly, and one that is left. -/
theorem removePrefix_discards_at_boundary :
    let buffers : SharedBufferList :=
      [.ofString [], ⟨some [1, 2, 3], 1, by decide⟩, .ofString [4, 5]]
    2 ≤ buffers.size ∧ ∃ rest : SharedBufferList, buffers.removePrefix 2 = .ok rest ∧
      rest.concatenate = [4, 5] ∧ rest.size = 2 := by
  intro buffers
  have hle : 2 ≤ buffers.size := by decide
  exact ⟨hle, ((removePrefix_discards 2).1 buffers).2 hle⟩

end Sponge
