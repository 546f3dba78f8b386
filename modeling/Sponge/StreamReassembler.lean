import Mathlib.Tactic
import Sponge.ByteStream
import Sponge.Foundations.RingBuffer
import Sponge.Foundations.Reassembly

/-!
# The stream reassembler

`StreamReassembler` keeps the bytes that arrived out of order in a ring of `_capacity` cells, with
one occupancy flag for each cell, and writes what has become contiguous to its output stream. The
model follows the loops of `push_substring`; `pending` reads the ring as the partial map of
`Reassembly`, and the lemmas on `pushSubstring` say what a push does in these terms, so that no
later proof looks at the loops again.

`eof_index` starts as `size_t(-1)`, which no number of written bytes equals; it is `none` here. At
capacity `0` every push of the source divides by zero, where `%` of natural numbers yields a number;
`StreamReassembler.pushSubstringChecked` tells the two apart.

## Main definitions

* `StreamReassembler`, `StreamReassembler.pushSubstring`
* `StreamReassembler.WellFormed`: the ring has its capacity and its base is the write position
* `StreamReassembler.pending`: the bytes that wait in the ring, by stream index

## Main results

* `StreamReassembler.WellFormed.pending_pushSubstring`: a push inserts its bytes into the window
* `StreamReassembler.WellFormed.pushSubstring_output_buffer`: it moves the contiguous run from the
  base, cut to the room of the output, into the output
-/

namespace Sponge

/-- `StreamReassembler` of `stream_reassembler.hh`. -/
structure StreamReassembler where
  output : ByteStream
  capacity : ℕ
  buffer : List UInt8
  bitMap : List Bool
  rpos : ℕ
  unassembledBytes : ℕ
  eofIndex : Option ℕ
  deriving DecidableEq, Repr

namespace StreamReassembler

def new (capacity : ℕ) : StreamReassembler where
  output := ByteStream.new capacity
  capacity := capacity
  buffer := List.replicate capacity 0
  bitMap := List.replicate capacity false
  rpos := 0
  unassembledBytes := 0
  eofIndex := none

/-- One round of the storing loop: byte `i` of the stream goes to its cell, and is counted unless
the cell was occupied. -/
def storeByte (data : List UInt8) (index : ℕ) (r : StreamReassembler) (i : ℕ) :
    StreamReassembler :=
  { r with
    buffer := RingBuffer.put r.capacity r.buffer i (data.getD (i - index) 0)
    bitMap := RingBuffer.put r.capacity r.bitMap i true
    unassembledBytes :=
      if RingBuffer.get r.capacity r.bitMap i false then r.unassembledBytes
      else r.unassembledBytes + 1 }

/-- The storing loop over the bytes of `data` that fall into `[rpos, rpos + capacity)`. -/
def store (r : StreamReassembler) (data : List UInt8) (index : ℕ) : StreamReassembler :=
  -- what lies before the window is written already, what lies beyond is dropped
  let startIndex := max r.rpos index
  let endIndex := min (r.rpos + r.capacity) (index + data.length)
  (List.range' startIndex (endIndex - startIndex)).foldl (storeByte data index) r

/-- The loop that advances `avail_end` over the occupied cells of the window; it makes at most
`capacity` rounds. -/
def availLoop (r : StreamReassembler) : ℕ → ℕ → ℕ
  | 0, availEnd => availEnd
  | n + 1, availEnd =>
    if RingBuffer.get r.capacity r.bitMap availEnd false && decide (availEnd < r.rpos + r.capacity)
    then availLoop r n (availEnd + 1)
    else availEnd

/-- The contiguous bytes from `rpos` are written to the output, as many as it accepts; their cells
are freed and the window moves. -/
def submit (r : StreamReassembler) : StreamReassembler :=
  let availEnd := r.availLoop r.capacity r.rpos
  if r.rpos < availEnd then
    let dataSubmit := (List.range' r.rpos (availEnd - r.rpos)).map
      fun i => RingBuffer.get r.capacity r.buffer i 0
    let (output, writtenBytes) := r.output.write dataSubmit
    -- bytes that the output has no room for stay in the ring
    { r with
      output := output
      bitMap := RingBuffer.fill r.capacity r.bitMap (fun _ => false) r.rpos writtenBytes
      rpos := r.rpos + writtenBytes
      unassembledBytes := r.unassembledBytes - writtenBytes }
  else r

/-- Record the end of the stream, and end the output once everything before it is written. -/
def finish (r : StreamReassembler) (endIndex : ℕ) (eof : Bool) : StreamReassembler :=
  let eofIndex := if eof then some endIndex else r.eofIndex
  { r with
    eofIndex := eofIndex
    output := if some r.output.bytesWritten = eofIndex then r.output.endInput else r.output }

/-- Receive the substring `data` that starts at `index`, and write any newly contiguous bytes to
the output. -/
def pushSubstring (r : StreamReassembler) (data : List UInt8) (index : ℕ) (eof : Bool) :
    StreamReassembler :=
  ((r.store data index).submit).finish (index + data.length) eof

/-! ## The ring as a partial map -/

/-- The ring has its capacity, and its base is the number of bytes written to the output. -/
structure WellFormed (r : StreamReassembler) : Prop where
  capacity_pos : 0 < r.capacity
  output : r.output.WellFormed
  output_capacity : r.output.capacity = r.capacity
  buffer_length : r.buffer.length = r.capacity
  bitMap_length : r.bitMap.length = r.capacity
  rpos_eq : r.rpos = r.output.nwritten

/-- The byte of stream index `i` that waits in the ring, if any. -/
def pending (r : StreamReassembler) (i : ℕ) : Option UInt8 :=
  if r.rpos ≤ i ∧ i < r.rpos + r.capacity ∧ RingBuffer.get r.capacity r.bitMap i false = true then
    some (RingBuffer.get r.capacity r.buffer i 0)
  else none

theorem wellFormed_new {capacity : ℕ} (h : 0 < capacity) : (new capacity).WellFormed where
  capacity_pos := h
  output := ByteStream.wellFormed_new capacity
  output_capacity := rfl
  buffer_length := List.length_replicate
  bitMap_length := List.length_replicate
  rpos_eq := rfl

theorem WellFormed.mod_lt_buffer {r : StreamReassembler} (h : r.WellFormed) (i : ℕ) :
    i % r.capacity < r.buffer.length := by
  rw [h.buffer_length]
  exact Nat.mod_lt i h.capacity_pos

theorem WellFormed.mod_lt_bitMap {r : StreamReassembler} (h : r.WellFormed) (i : ℕ) :
    i % r.capacity < r.bitMap.length := by
  rw [h.bitMap_length]
  exact Nat.mod_lt i h.capacity_pos

theorem pending_new (capacity i : ℕ) : (new capacity).pending i = none := by
  have hbit : RingBuffer.get capacity (List.replicate capacity false) i false = false := by
    by_cases h : i % capacity < capacity
    · simp [RingBuffer.get, List.getD_eq_getElem?_getD, h]
    · simp [RingBuffer.get, List.getD_eq_getElem?_getD, h]
  exact if_neg (by simp [new, hbit])

/-! ## The storing loop -/

section Store

variable (r : StreamReassembler) (data : List UInt8) (index : ℕ)

theorem WellFormed.storeByte {r : StreamReassembler} (h : r.WellFormed) (data : List UInt8)
    (index i : ℕ) : (storeByte data index r i).WellFormed :=
  ⟨h.capacity_pos, h.output, h.output_capacity,
    (RingBuffer.length_put _ _ _).trans h.buffer_length,
    (RingBuffer.length_put _ _ _).trans h.bitMap_length, h.rpos_eq⟩

/-- The storing loop touches only the ring: it fills the same positions of the buffer and of the
occupancy flags. -/
theorem foldl_storeByte (lo k : ℕ) :
    ∃ n, (List.range' lo k).foldl (storeByte data index) r =
      { r with
        buffer := RingBuffer.fill r.capacity r.buffer (fun i => data.getD (i - index) 0) lo k
        bitMap := RingBuffer.fill r.capacity r.bitMap (fun _ => true) lo k
        unassembledBytes := n } := by
  -- the count of the unassembled bytes is left open: the ring does not depend on it
  induction k generalizing r lo with
  | zero => exact ⟨r.unassembledBytes, rfl⟩
  | succ k ih =>
    obtain ⟨n, hn⟩ := ih (storeByte data index r lo) (lo + 1)
    exact ⟨n, by rw [List.range'_succ, List.foldl_cons, hn]; rfl⟩

theorem exists_store_eq :
    ∃ n, r.store data index =
      { r with
        buffer := RingBuffer.fill r.capacity r.buffer (fun i => data.getD (i - index) 0)
          (max r.rpos index)
          (min (r.rpos + r.capacity) (index + data.length) - max r.rpos index)
        bitMap := RingBuffer.fill r.capacity r.bitMap (fun _ => true) (max r.rpos index)
          (min (r.rpos + r.capacity) (index + data.length) - max r.rpos index)
        unassembledBytes := n } :=
  foldl_storeByte r data index _ _

@[simp] theorem store_output : (r.store data index).output = r.output := by
  obtain ⟨n, hn⟩ := exists_store_eq r data index
  rw [hn]

@[simp] theorem store_capacity : (r.store data index).capacity = r.capacity := by
  obtain ⟨n, hn⟩ := exists_store_eq r data index
  rw [hn]

@[simp] theorem store_rpos : (r.store data index).rpos = r.rpos := by
  obtain ⟨n, hn⟩ := exists_store_eq r data index
  rw [hn]

@[simp] theorem store_eofIndex : (r.store data index).eofIndex = r.eofIndex := by
  obtain ⟨n, hn⟩ := exists_store_eq r data index
  rw [hn]

variable {r}

theorem WellFormed.store (h : r.WellFormed) : (r.store data index).WellFormed := by
  obtain ⟨n, hn⟩ := exists_store_eq r data index
  rw [hn]
  exact ⟨h.capacity_pos, h.output, h.output_capacity, by simpa using h.buffer_length,
    by simpa using h.bitMap_length, h.rpos_eq⟩

/-- What the ring holds after the storing loop: the bytes of `data` within the window, over what it
held before. -/
def inserted (r : StreamReassembler) (data : List UInt8) (index : ℕ) : ℕ → Option UInt8 :=
  Reassembly.insert r.pending data index r.rpos (r.rpos + r.capacity)

theorem WellFormed.pending_store (h : r.WellFormed) :
    (r.store data index).pending = r.inserted data index := by
  funext i
  obtain ⟨n, hn⟩ := exists_store_eq r data index
  rw [hn]
  unfold pending inserted Reassembly.insert
  dsimp only
  by_cases hwin : r.rpos ≤ i ∧ i < r.rpos + r.capacity
  · -- the flags and the bytes are filled at the same positions
    have hget := fun {α : Type} (cells : List α) (hlen : cells.length = r.capacity) (f : ℕ → α) =>
      RingBuffer.get_fill h.capacity_pos hlen f (b := r.rpos) (i := max r.rpos index)
        (k := min (r.rpos + r.capacity) (index + data.length) - max r.rpos index) (j := i)
        (by omega) (by omega) hwin.1 hwin.2
    have hrange : (max r.rpos index ≤ i ∧ i < max r.rpos index +
        (min (r.rpos + r.capacity) (index + data.length) - max r.rpos index)) ↔
        index ≤ i ∧ i < index + data.length := by omega
    rw [hget r.bitMap h.bitMap_length, hget r.buffer h.buffer_length]
    simp only [hrange, hwin, true_and]
    by_cases hin : index ≤ i ∧ i < index + data.length
    · have hlt : i - index < data.length := by omega
      simp [hin, List.getElem?_eq_getElem hlt]
    · simp only [hin, if_false, pending, hwin, true_and]
  · rw [if_neg fun hc => hwin ⟨hc.1, hc.2.1⟩, if_neg fun hc => hwin ⟨hc.1, hc.2.1⟩]
    exact (if_neg fun hc => hwin ⟨hc.1, hc.2.1⟩).symm

end Store

/-! ## Submitting the contiguous run -/

section Submit

variable {r : StreamReassembler}

theorem pending_eq_none_of_ge {i : ℕ} (hi : r.rpos + r.capacity ≤ i) : r.pending i = none :=
  if_neg (by omega)

/-- The loop over the occupied cells stops after the contiguous run. -/
theorem availLoop_eq {n a : ℕ} (ha : r.rpos ≤ a) (hn : a + n = r.rpos + r.capacity) :
    r.availLoop n a = a + (Reassembly.contiguous r.pending a n).length := by
  induction n generalizing a with
  | zero => simp [availLoop, Reassembly.contiguous]
  | succ n ih =>
    have hlt : a < r.rpos + r.capacity := by omega
    unfold availLoop
    cases hbit : RingBuffer.get r.capacity r.bitMap a false with
    | false =>
      -- a free cell ends the loop and the run
      have hp : r.pending a = none := if_neg (by simp [hbit])
      simp [Reassembly.contiguous_none hp]
    | true =>
      have hp : r.pending a = some (RingBuffer.get r.capacity r.buffer a 0) :=
        if_pos ⟨ha, hlt, hbit⟩
      rw [if_pos (by simp [hlt]), ih (by omega) (by omega), Reassembly.contiguous_some hp,
        List.length_cons]
      omega

/-- The submitted string is the contiguous run. -/
theorem map_get_eq_contiguous {n a : ℕ} :
    (List.range' a (Reassembly.contiguous r.pending a n).length).map
        (fun i => RingBuffer.get r.capacity r.buffer i 0) =
      Reassembly.contiguous r.pending a n := by
  -- element by element: within the run the cell is occupied
  apply List.ext_getElem?
  intro k
  by_cases hk : k < (Reassembly.contiguous r.pending a n).length
  · have hm := Reassembly.getElem?_contiguous hk
    have hsome : r.pending (a + k) = some (Reassembly.contiguous r.pending a n)[k] := by
      rw [← hm, List.getElem?_eq_getElem hk]
    have hval : r.pending (a + k) = some (RingBuffer.get r.capacity r.buffer (a + k) 0) := by
      unfold pending at hsome ⊢
      split_ifs at hsome ⊢ with hc
      · rfl
    rw [hm, hval, List.getElem?_map, List.getElem?_range' hk]
    simp
  · rw [List.getElem?_eq_none (by simpa using hk), List.getElem?_eq_none (by omega)]

/-- The bytes that a submission writes: the contiguous run, cut to the room of the output. -/
def submission (r : StreamReassembler) : List UInt8 :=
  Reassembly.contiguous r.pending r.rpos r.output.remainingCapacity

theorem WellFormed.take_contiguous (h : r.WellFormed) :
    (Reassembly.contiguous r.pending r.rpos r.capacity).take r.output.remainingCapacity =
      r.submission := by
  have hle : r.output.remainingCapacity ≤ r.capacity := by
    rw [← h.output_capacity]
    exact Nat.sub_le _ _
  rw [Reassembly.take_contiguous, min_eq_left hle, submission]

theorem WellFormed.submission_length_le (h : r.WellFormed) : r.submission.length ≤ r.capacity := by
  rw [← h.take_contiguous, List.length_take]
  exact (Nat.min_le_right _ _).trans (Reassembly.length_contiguous_le _ _ _)

/-- A submission as one update; without a contiguous byte it changes nothing. -/
theorem WellFormed.submit_eq (h : r.WellFormed) :
    r.submit =
      { r with
        output := (r.output.write r.submission).1
        bitMap := RingBuffer.fill r.capacity r.bitMap (fun _ => false) r.rpos r.submission.length
        rpos := r.rpos + r.submission.length
        unassembledBytes := r.unassembledBytes - r.submission.length } := by
  have hav := availLoop_eq (r := r) (n := r.capacity) (a := r.rpos) le_rfl rfl
  have hsub := h.take_contiguous
  have hlen := congrArg List.length hsub
  rw [List.length_take] at hlen
  -- the output accepts the whole submission
  have hidem : r.submission.take r.output.remainingCapacity = r.submission := by
    rw [← hsub, List.take_take, min_self]
  unfold submit
  simp only [hav, Nat.add_sub_cancel_left, map_get_eq_contiguous]
  split_ifs with hpos
  · simp only [ByteStream.write, hsub, hidem]
  · -- the branch without a submission
    have hnil : r.submission = [] := by
      rw [← List.length_eq_zero_iff]
      omega
    simp [hnil, RingBuffer.fill_zero, ByteStream.write]

theorem WellFormed.submit_output_nwritten (h : r.WellFormed) :
    r.submit.output.nwritten = r.output.nwritten + r.submission.length := by
  have hsub := congrArg List.length h.take_contiguous
  rw [List.length_take] at hsub
  rw [h.submit_eq, ByteStream.write_fst_nwritten, ByteStream.write_snd]
  omega

theorem WellFormed.submit_output_buffer (h : r.WellFormed) :
    r.submit.output.buffer = r.output.buffer ++ r.submission := by
  rw [h.submit_eq, ByteStream.write_fst_buffer, ← h.take_contiguous, List.take_take, min_self]

theorem WellFormed.submit (h : r.WellFormed) : r.submit.WellFormed := by
  have hn := h.submit_output_nwritten
  rw [h.submit_eq] at hn ⊢
  refine ⟨h.capacity_pos, h.output.write _, h.output_capacity, h.buffer_length, ?_, ?_⟩
  · simpa using h.bitMap_length
  · rw [hn, ← h.rpos_eq]

/-- After a submission the ring holds what it held from the new base on: the freed cells are those
that the indices entering the window will use. -/
theorem WellFormed.pending_submit (h : r.WellFormed) (i : ℕ) :
    r.submit.pending i = if r.rpos + r.submission.length ≤ i then r.pending i else none := by
  have hle := h.submission_length_le
  have hcap := h.capacity_pos
  rw [h.submit_eq]
  by_cases hlo : r.rpos + r.submission.length ≤ i
  · rw [if_pos hlo]
    by_cases hhi : i < r.rpos + r.capacity
    · -- `i` was in the window before, and its cell was not freed
      have hget := RingBuffer.get_fill hcap h.bitMap_length (fun _ => false) (b := r.rpos)
        (i := r.rpos) (k := r.submission.length) (j := i) le_rfl (by omega) (by omega) hhi false
      rw [if_neg (by omega)] at hget
      unfold pending
      dsimp only
      rw [hget]
      simp only [hlo, hhi, show r.rpos ≤ i by omega, true_and,
        show i < r.rpos + r.submission.length + r.capacity by omega]
    · rw [pending_eq_none_of_ge (r := r) (by omega)]
      by_cases hnew : i < r.rpos + r.submission.length + r.capacity
      · -- the cell of `i` is that of `i - capacity`, which was freed
        obtain ⟨j, rfl⟩ : ∃ j, i = j + r.capacity := ⟨i - r.capacity, by omega⟩
        have hget := RingBuffer.get_fill hcap h.bitMap_length (fun _ => false) (b := r.rpos)
          (i := r.rpos) (k := r.submission.length) (j := j) le_rfl (by omega) (by omega)
          (by omega) false
        rw [if_pos (by omega)] at hget
        refine if_neg fun hc => ?_
        have hbit := hc.2.2
        dsimp only at hbit
        rw [RingBuffer.get_add_self, hget] at hbit
        cases hbit
      · exact if_neg fun hc => hnew hc.2.1
  · rw [if_neg hlo]
    exact if_neg fun hc => hlo hc.1

end Submit

/-! ## What a push does -/

section Push

variable {r : StreamReassembler} (data : List UInt8) (index : ℕ) (eof : Bool)

/-- The bytes that a push writes to the output. -/
def delivered (r : StreamReassembler) (data : List UInt8) (index : ℕ) : List UInt8 :=
  Reassembly.contiguous (r.inserted data index) r.rpos r.output.remainingCapacity

theorem WellFormed.submission_store (h : r.WellFormed) :
    (r.store data index).submission = r.delivered data index := by
  rw [submission, h.pending_store, store_rpos, store_output, delivered]

theorem WellFormed.setError (h : r.WellFormed) :
    WellFormed { r with output := r.output.setError } :=
  ⟨h.capacity_pos, h.output.setError, h.output_capacity, h.buffer_length, h.bitMap_length,
    h.rpos_eq⟩

theorem WellFormed.finish (h : r.WellFormed) (endIndex : ℕ) :
    (r.finish endIndex eof).WellFormed := by
  unfold StreamReassembler.finish
  dsimp only
  generalize (if eof then some endIndex else r.eofIndex) = eofIndex
  by_cases hend : some r.output.bytesWritten = eofIndex
  · rw [if_pos hend]
    exact ⟨h.capacity_pos, h.output.endInput, h.output_capacity, h.buffer_length,
      h.bitMap_length, h.rpos_eq⟩
  · rw [if_neg hend]
    exact ⟨h.capacity_pos, h.output, h.output_capacity, h.buffer_length, h.bitMap_length,
      h.rpos_eq⟩

theorem WellFormed.pushSubstring (h : r.WellFormed) :
    (r.pushSubstring data index eof).WellFormed :=
  ((h.store data index).submit).finish _ _

theorem WellFormed.pushSubstring_rpos (h : r.WellFormed) :
    (r.pushSubstring data index eof).rpos = r.rpos + (r.delivered data index).length := by
  change (r.store data index).submit.rpos = _
  rw [(h.store data index).submit_eq, h.submission_store, store_rpos]

theorem WellFormed.pushSubstring_capacity (h : r.WellFormed) :
    (r.pushSubstring data index eof).capacity = r.capacity := by
  change (r.store data index).submit.capacity = _
  rw [(h.store data index).submit_eq, store_capacity]

/-- **A push and the ring**: its bytes are inserted into the window, and what is delivered leaves
the ring. -/
theorem WellFormed.pending_pushSubstring (h : r.WellFormed) (i : ℕ) :
    (r.pushSubstring data index eof).pending i =
      if r.rpos + (r.delivered data index).length ≤ i then r.inserted data index i else none := by
  have hs := (h.store data index).pending_submit i
  rwa [h.submission_store, h.pending_store, store_rpos] at hs

theorem pushSubstring_eofIndex :
    (r.pushSubstring data index eof).eofIndex =
      if eof then some (index + data.length) else (r.store data index).submit.eofIndex := rfl

theorem WellFormed.pushSubstring_eofIndex_eq (h : r.WellFormed) :
    (r.pushSubstring data index eof).eofIndex =
      if eof then some (index + data.length) else r.eofIndex := by
  rw [pushSubstring_eofIndex, (h.store data index).submit_eq, store_eofIndex]

theorem pushSubstring_output :
    (r.pushSubstring data index eof).output =
      if some (r.store data index).submit.output.nwritten =
          (r.pushSubstring data index eof).eofIndex
      then (r.store data index).submit.output.endInput
      else (r.store data index).submit.output := rfl

theorem pushSubstring_output_capacity :
    (r.pushSubstring data index eof).output.capacity = r.output.capacity := by
  have hsubmit : (r.store data index).submit.output.capacity = r.output.capacity := by
    unfold submit
    dsimp only
    split_ifs <;> simp
  rw [pushSubstring_output]
  split_ifs <;> exact hsubmit

theorem pushSubstring_output_error :
    (r.pushSubstring data index eof).output.error = r.output.error := by
  have hsubmit : (r.store data index).submit.output.error = r.output.error := by
    unfold submit
    dsimp only
    split_ifs <;> simp
  rw [pushSubstring_output]
  split_ifs <;> exact hsubmit

/-- An ended output stays ended. -/
theorem pushSubstring_inputEnded (h : r.output.inputEnded = true) :
    (r.pushSubstring data index eof).output.inputEnded = true := by
  have hsubmit : (r.store data index).submit.output.inputEnded = true := by
    unfold submit
    dsimp only
    split_ifs <;> simp [h]
  rw [pushSubstring_output]
  split_ifs
  · rfl
  · exact hsubmit

/-- **A push and the output**: the delivered bytes are appended, the read side is untouched. -/
theorem WellFormed.pushSubstring_output_buffer (h : r.WellFormed) :
    (r.pushSubstring data index eof).output.buffer =
      r.output.buffer ++ r.delivered data index := by
  have hb := (h.store data index).submit_output_buffer
  rw [h.submission_store, store_output] at hb
  rw [pushSubstring_output, ← hb]
  split_ifs <;> rfl

theorem WellFormed.pushSubstring_output_nwritten (h : r.WellFormed) :
    (r.pushSubstring data index eof).output.nwritten =
      r.output.nwritten + (r.delivered data index).length := by
  have hn := (h.store data index).submit_output_nwritten
  rw [h.submission_store, store_output] at hn
  rw [pushSubstring_output, ← hn]
  split_ifs <;> rfl

theorem WellFormed.pushSubstring_output_nread (h : r.WellFormed) :
    (r.pushSubstring data index eof).output.nread = r.output.nread := by
  rw [pushSubstring_output, (h.store data index).submit_eq]
  split_ifs <;> simp

theorem WellFormed.pushSubstring_output_inputEnded (h : r.WellFormed) :
    (r.pushSubstring data index eof).output.inputEnded =
      (r.output.inputEnded || decide (some (r.pushSubstring data index eof).output.nwritten =
        (r.pushSubstring data index eof).eofIndex)) := by
  have hn : (r.store data index).submit.output.nwritten =
      (r.pushSubstring data index eof).output.nwritten := by
    rw [pushSubstring_output]
    split_ifs <;> rfl
  have hended : (r.store data index).submit.output.inputEnded = r.output.inputEnded := by
    rw [(h.store data index).submit_eq]
    simp
  rw [← hn, pushSubstring_output]
  split_ifs with hc
  · simp [hc]
  · simp [hc, hended]

end Push

end StreamReassembler

end Sponge
