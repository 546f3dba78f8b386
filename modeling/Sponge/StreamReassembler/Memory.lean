import Mathlib.Tactic
import Mathlib.Order.Interval.Finset.Nat
import Sponge.Foundations.Run
import Sponge.StreamReassembler.Delivery

/-!
# The memory of the reassembler

The capacity of a reassembler is meant to limit the assembled bytes that nobody has read together
with the bytes that wait in the ring. The window of the ring, however, is as wide as the capacity
wherever the reader is, so that bytes up to `bytes_written() + capacity` are stored, while those
from `bytes_read() + capacity` on should not be. The limit holds on every run whose pushes have no
byte in between, and one push that has such a byte can always be followed by another one that
exceeds it.

## Main definitions

* `StreamReassembler.held`: the stream indices that wait in the ring
* `StreamReassembler.Accounted`: `_unassembled_bytes` counts them
* `StreamReassembler.WithinLimit`: a push without a byte between the limit and the end of the window

## Main results

* `StreamReassembler.Accounted.pushSubstring_total`: a push adds its new bytes to the total
* `reassembler_memory_bound_of_within`: the limit holds on every run of pushes within the limit
* `reassembler_memory_bound_exceeded`: a full output and as many bytes in the ring
-/

namespace Sponge

namespace StreamReassembler

variable {r : StreamReassembler} {data : List UInt8} {index : ℕ}

/-- The stream indices whose bytes wait in the ring. -/
def held (r : StreamReassembler) : Finset ℕ :=
  (Finset.Ico r.rpos (r.rpos + r.capacity)).filter fun i => r.stored i = true

theorem mem_held {i : ℕ} :
    i ∈ r.held ↔ (r.rpos ≤ i ∧ i < r.rpos + r.capacity) ∧ r.stored i = true := by
  rw [held, Finset.mem_filter, Finset.mem_Ico]

theorem mem_held_iff_pending {i : ℕ} : i ∈ r.held ↔ (r.pending i).isSome = true := by
  rw [mem_held, pending, stored]
  split_ifs with h
  · exact iff_of_true ⟨⟨h.1, h.2.1⟩, h.2.2⟩ rfl
  · exact iff_of_false (fun hi => h ⟨hi.1.1, hi.1.2, hi.2⟩) (by simp)

/-- The bytes that a push finds missing in the window. -/
def fresh (r : StreamReassembler) (data : List UInt8) (index : ℕ) : Finset ℕ :=
  (Finset.Ico (max r.rpos index) (min (r.rpos + r.capacity) (index + data.length))) \ r.held

/-! ## The storing loop counts -/

/-- Storing one byte of the window sets its flag and no other. -/
theorem WellFormed.held_storeByte (h : r.WellFormed) {i : ℕ} (hi : r.rpos ≤ i)
    (hi' : i < r.rpos + r.capacity) :
    (StreamReassembler.storeByte data index r i).held = insert i r.held := by
  ext j
  rw [Finset.mem_insert, mem_held, mem_held]
  change (r.rpos ≤ j ∧ j < r.rpos + r.capacity) ∧
    RingBuffer.get r.capacity (RingBuffer.put r.capacity r.bitMap i true) j false = true ↔ _
  by_cases hij : j = i
  · subst hij
    rw [RingBuffer.get_put_self h.capacity_pos h.bitMap_length]
    exact iff_of_true ⟨⟨hi, hi'⟩, rfl⟩ (Or.inl rfl)
  · rw [or_iff_right hij]
    refine and_congr_right fun hj => ?_
    -- two positions of the window have different cells
    have hcell : i % r.capacity ≠ j % r.capacity := fun hmod =>
      hij (RingBuffer.mod_inj hmod (by omega) (by omega)).symm
    rw [RingBuffer.get_put_of_ne _ hcell]
    rfl

theorem storeByte_unassembledBytes {i : ℕ} (hi : r.rpos ≤ i) (hi' : i < r.rpos + r.capacity) :
    (storeByte data index r i).unassembledBytes =
      r.unassembledBytes + (if i ∈ r.held then 0 else 1) := by
  have hmem : i ∈ r.held ↔ RingBuffer.get r.capacity r.bitMap i false = true :=
    mem_held.trans (and_iff_right ⟨hi, hi'⟩)
  unfold StreamReassembler.storeByte
  dsimp only
  simp only [hmem]
  split_ifs <;> rfl

/-- **The storing loop counts the bytes that were missing.** -/
theorem WellFormed.foldl_storeByte_unassembledBytes (h : r.WellFormed) (data : List UInt8)
    (index : ℕ) {lo k : ℕ} (hlo : r.rpos ≤ lo)
    (hhi : lo + k ≤ r.rpos + r.capacity) :
    ((List.range' lo k).foldl (StreamReassembler.storeByte data index) r).unassembledBytes =
      r.unassembledBytes + (Finset.Ico lo (lo + k) \ r.held).card := by
  -- induction on the rounds; the first byte is stored before the others are looked at
  induction k generalizing r lo with
  | zero => simp
  | succ k ih =>
    have hin : lo < r.rpos + r.capacity := by omega
    have hrest := ih (h.storeByte data index lo)
      (show r.rpos ≤ lo + 1 by omega) (show lo + 1 + k ≤ r.rpos + r.capacity by omega)
    have hfirst : Finset.Ico lo (lo + (k + 1)) = insert lo (Finset.Ico (lo + 1) (lo + 1 + k)) := by
      rw [Finset.insert_Ico_add_one_left_eq_Ico (by omega), Nat.add_assoc, Nat.add_comm 1 k]
    have hout : lo ∉ Finset.Ico (lo + 1) (lo + 1 + k) := by simp
    rw [List.range'_succ, List.foldl_cons, hrest, h.held_storeByte hlo hin,
      storeByte_unassembledBytes hlo hin, hfirst, Finset.sdiff_insert_of_notMem hout]
    split_ifs with hmem
    · rw [Finset.insert_sdiff_of_mem _ hmem, Nat.add_zero]
    · rw [Finset.insert_sdiff_of_notMem _ hmem, Finset.card_insert_of_notMem (by simp)]
      omega

/-- `_unassembled_bytes` counts the bytes that wait in the ring. -/
structure Accounted (r : StreamReassembler) : Prop extends WellFormed r where
  unassembledBytes_eq : r.unassembledBytes = r.held.card

theorem held_new (capacity : ℕ) : (new capacity).held = ∅ := by
  refine Finset.eq_empty_of_forall_notMem fun i hi => ?_
  rw [mem_held_iff_pending, pending_new] at hi
  cases hi

theorem accounted_new {capacity : ℕ} (h : 0 < capacity) : (new capacity).Accounted where
  toWellFormed := wellFormed_new h
  unassembledBytes_eq := by
    rw [held_new]
    rfl

theorem WellFormed.unassembledBytes_store (h : r.WellFormed) :
    (r.store data index).unassembledBytes = r.unassembledBytes + (r.fresh data index).card := by
  unfold StreamReassembler.store fresh
  dsimp only
  by_cases hle : max r.rpos index ≤ min (r.rpos + r.capacity) (index + data.length)
  · have hloop := h.foldl_storeByte_unassembledBytes data index (Nat.le_max_left r.rpos index)
      (k := min (r.rpos + r.capacity) (index + data.length) - max r.rpos index) (by omega)
    rwa [Nat.add_sub_cancel' hle] at hloop
  · -- the loop makes no round
    rw [Nat.sub_eq_zero_of_le (by omega), Finset.Ico_eq_empty (by omega)]
    simp

/-- After the storing loop the ring holds what it held and what was missing. -/
theorem WellFormed.held_store (h : r.WellFormed) :
    (r.store data index).held = r.held ∪ r.fresh data index := by
  ext i
  rw [mem_held_iff_pending, h.pending_store, Finset.mem_union, fresh, Finset.mem_sdiff,
    Finset.mem_Ico, or_and_left, and_iff_left (Classical.em _), mem_held_iff_pending, inserted,
    Reassembly.insert]
  split_ifs with hin
  · have hlt : i - index < data.length := by omega
    rw [List.getElem?_eq_getElem hlt]
    exact iff_of_true rfl (Or.inr (by omega))
  · exact (or_iff_left (by omega)).symm

/-- The bytes of a submission have waited in the ring. -/
theorem mem_held_of_submission {i : ℕ} (hlo : r.rpos ≤ i)
    (hhi : i < r.rpos + r.submission.length) : i ∈ r.held := by
  obtain ⟨k, rfl⟩ := Nat.exists_eq_add_of_le hlo
  have hk : k < r.submission.length := by omega
  have hget : r.submission[k]? = r.pending (r.rpos + k) := Reassembly.getElem?_contiguous hk
  rw [mem_held_iff_pending, ← hget, List.getElem?_eq_getElem hk]
  rfl

theorem WellFormed.held_submit (h : r.WellFormed) :
    r.submit.held = r.held \ Finset.Ico r.rpos (r.rpos + r.submission.length) := by
  ext i
  rw [mem_held_iff_pending, h.pending_submit, Finset.mem_sdiff, Finset.mem_Ico,
    mem_held_iff_pending]
  split_ifs with hi
  · exact (and_iff_left (by omega)).symm
  · refine iff_of_false (by simp) fun hmem => ?_
    have := (mem_held.mp (mem_held_iff_pending.mpr hmem.1)).1.1
    omega

theorem Ico_submission_subset_held :
    Finset.Ico r.rpos (r.rpos + r.submission.length) ⊆ r.held := by
  intro i hi
  rw [Finset.mem_Ico] at hi
  exact mem_held_of_submission hi.1 hi.2

/-- What is submitted was counted. -/
theorem Accounted.submission_length_le_unassembledBytes (h : r.Accounted) :
    r.submission.length ≤ r.unassembledBytes := by
  have hcard := Finset.card_le_card (Ico_submission_subset_held (r := r))
  rwa [Nat.card_Ico, Nat.add_sub_cancel_left, ← h.unassembledBytes_eq] at hcard

/-- The ring has no more bytes than cells. -/
theorem Accounted.unassembledBytes_le (h : r.Accounted) : r.unassembledBytes ≤ r.capacity := by
  rw [h.unassembledBytes_eq, held]
  refine (Finset.card_filter_le _ _).trans ?_
  rw [Nat.card_Ico, Nat.add_sub_cancel_left]

/-- **A submission moves bytes from the ring to the output**: the two counters change alike. -/
theorem Accounted.submit (h : r.Accounted) :
    r.submit.Accounted ∧
      r.submit.output.size + r.submit.unassembledBytes = r.output.size + r.unassembledBytes := by
  have hwf := h.toWellFormed
  have hcard := Finset.card_sdiff_add_card_eq_card (Ico_submission_subset_held (r := r))
  rw [← hwf.held_submit, Nat.card_Ico, Nat.add_sub_cancel_left, ← h.unassembledBytes_eq] at hcard
  have hunassembled : r.submit.unassembledBytes = r.unassembledBytes - r.submission.length := by
    rw [hwf.submit_eq]
  have hsize : r.submit.output.size = r.output.size + r.submission.length := by
    rw [hwf.submit.output.size_eq, hwf.submit_output_buffer, List.length_append,
      ← hwf.output.size_eq]
  exact ⟨⟨hwf.submit, by omega⟩, by omega⟩

theorem Accounted.store (h : r.Accounted) (data : List UInt8) (index : ℕ) :
    (r.store data index).Accounted where
  toWellFormed := h.toWellFormed.store data index
  unassembledBytes_eq := by
    rw [h.toWellFormed.unassembledBytes_store, h.toWellFormed.held_store,
      Finset.card_union_of_disjoint, h.unassembledBytes_eq]
    exact Finset.disjoint_sdiff

/-- The bytes that nobody has read: in the output, and in the ring. -/
def total (r : StreamReassembler) : ℕ := r.output.bufferSize + r.unassembledBytes

/-- **A push adds its new bytes to the total**, wherever they end up. -/
theorem Accounted.pushSubstring_total (h : r.Accounted) (data : List UInt8) (index : ℕ)
    (eof : Bool) :
    (r.pushSubstring data index eof).Accounted ∧
      (r.pushSubstring data index eof).total = r.total + (r.fresh data index).card := by
  obtain ⟨hsubmit, htotal⟩ := (h.store data index).submit
  rw [store_output, h.toWellFormed.unassembledBytes_store] at htotal
  have hsize : (r.pushSubstring data index eof).output.size =
      (r.store data index).submit.output.size := by
    rw [pushSubstring_output]
    split_ifs <;> rfl
  refine ⟨⟨h.toWellFormed.pushSubstring data index eof, hsubmit.unassembledBytes_eq⟩, ?_⟩
  change (r.pushSubstring data index eof).output.size +
    (r.store data index).submit.unassembledBytes = _
  rw [hsize, htotal, total, ByteStream.bufferSize]
  omega

end StreamReassembler

/-! ## Runs -/

/-- A call on a reassembler: a push of anything, or a read of its output. -/
inductive ReassemblerCall where
  | pushSubstring (data : List UInt8) (index : ℕ) (eof : Bool)
  | read (len : ℕ)
  deriving DecidableEq, Repr

namespace StreamReassembler

/-- One call. -/
def step (r : StreamReassembler) : ReassemblerCall → StreamReassembler
  | .pushSubstring data index eof => r.pushSubstring data index eof
  | .read len => { r with output := (r.output.read len).1 }

/-- No byte of the push lies between `bytes_read() + capacity`, from where on nothing should be
stored, and `bytes_written() + capacity`, where the window of the ring ends. -/
def WithinLimit (r : StreamReassembler) : ReassemblerCall → Prop
  | .pushSubstring data index _ =>
    min (index + data.length) (r.output.bytesWritten + r.capacity) ≤
      max index (r.output.bytesRead + r.capacity)
  | .read _ => True

instance (r : StreamReassembler) : ∀ op, Decidable (r.WithinLimit op)
  | .pushSubstring _ _ _ => inferInstanceAs (Decidable (_ ≤ _))
  | .read _ => isTrue trivial

/-- **Everything in the ring is within the limit.** -/
structure Limited (r : StreamReassembler) : Prop extends Accounted r where
  held_lt : ∀ i ∈ r.held, i < r.output.nread + r.capacity

variable {r : StreamReassembler}

theorem Accounted.step (h : r.Accounted) (op : ReassemblerCall) :
    (r.step op).Accounted ∧ (r.step op).capacity = r.capacity := by
  cases op with
  | pushSubstring data index eof =>
    exact ⟨(h.pushSubstring_total data index eof).1,
      h.toWellFormed.pushSubstring_capacity data index eof⟩
  | read len =>
    exact ⟨⟨⟨h.capacity_pos, h.output.popOutput len, h.output_capacity, h.buffer_length,
      h.bitMap_length, h.rpos_eq⟩, h.unassembledBytes_eq⟩, rfl⟩

/-- One call within the limit. -/
theorem Limited.step (h : r.Limited) (op : ReassemblerCall) (hop : r.WithinLimit op) :
    (r.step op).Limited := by
  have haccounted := (h.toAccounted.step op).1
  cases op with
  | read len =>
    exact ⟨haccounted, fun i hi => Nat.lt_of_lt_of_le (h.held_lt i hi) (by
      simp only [StreamReassembler.step, ByteStream.read, ByteStream.popOutput_nread]
      omega)⟩
  | pushSubstring data index eof =>
    refine ⟨haccounted, fun i hi => ?_⟩
    have hwf := h.toWellFormed
    have hrpos := hwf.rpos_eq
    simp only [StreamReassembler.step] at hi ⊢
    rw [hwf.pushSubstring_output_nread, hwf.pushSubstring_capacity]
    rw [mem_held_iff_pending, hwf.pending_pushSubstring] at hi
    split_ifs at hi with hlo
    · rw [← hwf.pending_store, ← mem_held_iff_pending, hwf.held_store, Finset.mem_union] at hi
      rcases hi with hold | hnew
      · exact h.held_lt i hold
      · -- a byte of the push, inside the window of the ring
        rw [fresh, Finset.mem_sdiff, Finset.mem_Ico] at hnew
        unfold WithinLimit ByteStream.bytesWritten ByteStream.bytesRead at hop
        omega
    · cases hi

/-- Within the limit the total does not exceed the capacity. -/
theorem Limited.total_le (h : r.Limited) : r.total ≤ r.capacity := by
  have hsub : r.held ⊆ Finset.Ico r.rpos (r.output.nread + r.capacity) := by
    intro i hi
    rw [Finset.mem_Ico]
    exact ⟨(mem_held.mp hi).1.1, h.held_lt i hi⟩
  have hcard := Finset.card_le_card hsub
  have hsize := h.output.size_le
  have hcount := h.output.nwritten_eq
  have hcap := h.output_capacity
  have hrpos := h.rpos_eq
  rw [Nat.card_Ico, ← h.unassembledBytes_eq] at hcard
  unfold total ByteStream.bufferSize
  omega

/-- Whoever holds a byte at `i` exceeds a total of `i - nread` once all bytes before it have
arrived. -/
theorem Accounted.lt_total_of_mem (h : r.Accounted) {i : ℕ} (hi : i ∈ r.held) :
    ∃ data index, i < (r.pushSubstring data index false).total + r.output.nread := by
  obtain ⟨⟨hlo, hhi⟩, -⟩ := mem_held.mp hi
  refine ⟨List.replicate (i - r.rpos) 0, r.rpos, ?_⟩
  have htotal := (h.pushSubstring_total (List.replicate (i - r.rpos) 0) r.rpos false).2
  have hsub : Finset.Ico r.rpos (i + 1) ⊆
      r.held ∪ r.fresh (List.replicate (i - r.rpos) 0) r.rpos := by
    intro j hj
    rw [Finset.mem_Ico] at hj
    rw [fresh, Finset.union_sdiff_self_eq_union, Finset.mem_union, Finset.mem_Ico,
      List.length_replicate]
    rcases Nat.lt_succ_iff_lt_or_eq.mp hj.2 with hlt | rfl
    · exact Or.inr (by omega)
    · exact Or.inl hi
  have hcard := (Finset.card_le_card hsub).trans (Finset.card_union_le _ _)
  have hcount := h.output.nwritten_eq
  have hrpos := h.rpos_eq
  rw [Nat.card_Ico, ← h.unassembledBytes_eq] at hcard
  rw [htotal, total, ByteStream.bufferSize]
  omega

/-- **A push beyond the limit** leaves a byte in the ring that is too far ahead, and can be followed
by one that exceeds the capacity. -/
theorem Accounted.exceeds (h : r.Accounted) {data : List UInt8} {index : ℕ} {eof : Bool}
    (hpush : ¬ r.WithinLimit (.pushSubstring data index eof)) :
    ∃ data' index', r.capacity <
      ((r.pushSubstring data index eof).pushSubstring data' index' false).total := by
  have hwf := h.toWellFormed
  have hwf' := hwf.pushSubstring data index eof
  have hnread := hwf.pushSubstring_output_nread data index eof
  have hcap := hwf.pushSubstring_capacity data index eof
  have hrpos := hwf.rpos_eq
  have hsize := hwf.output.size_le
  have hcount := hwf.output.nwritten_eq
  have hout := hwf.output_capacity
  unfold WithinLimit ByteStream.bytesWritten ByteStream.bytesRead at hpush
  -- the first byte of the push beyond the limit is stored, and there is no room to deliver it
  generalize hi : max index (r.output.nread + r.capacity) = i at hpush
  have hmem : i ∈ (r.pushSubstring data index eof).held := by
    have hstored : i ∈ (r.store data index).held := by
      rw [hwf.held_store, fresh, Finset.union_sdiff_self_eq_union, Finset.mem_union,
        Finset.mem_Ico]
      exact Or.inr (by omega)
    have hlate : r.rpos + (r.delivered data index).length ≤ i := by
      have hsize' := hwf'.output.size_le
      have hcount' := hwf'.output.nwritten_eq
      have hout' := hwf'.output_capacity
      rw [hwf.pushSubstring_output_nwritten, hnread] at hcount'
      omega
    rw [mem_held_iff_pending, hwf.pending_store] at hstored
    rw [mem_held_iff_pending, hwf.pending_pushSubstring, if_pos hlate]
    exact hstored
  obtain ⟨data', index', hlt⟩ := (h.pushSubstring_total data index eof).1.lt_total_of_mem hmem
  exact ⟨data', index', by omega⟩

end StreamReassembler

/-- **When the reassembler stays within its memory.** On every run of arbitrary pushes and reads in
which no push has a byte between `bytes_read() + capacity` and `bytes_written() + capacity`, the
assembled bytes that nobody has read and the bytes in the ring never exceed the capacity. And a push
that has such a byte, in whatever state, can be followed by a push after which they do. -/
theorem reassembler_memory_bound_of_within {capacity : ℕ} (hcap : 1 ≤ capacity)
    (ops : List ReassemblerCall) :
    let r := Run.exec StreamReassembler.step (StreamReassembler.new capacity) ops
    (Run.Always StreamReassembler.step StreamReassembler.WithinLimit
        (StreamReassembler.new capacity) ops →
      r.output.bufferSize + r.unassembledBytes ≤ capacity) ∧
    ∀ data index eof, ¬ r.WithinLimit (.pushSubstring data index eof) →
      ∃ data' index',
        let r' := (r.pushSubstring data index eof).pushSubstring data' index' false
        capacity < r'.output.bufferSize + r'.unassembledBytes := by
  intro r
  have haccounted := StreamReassembler.accounted_new hcap
  have hr : r.Accounted ∧ r.capacity = capacity :=
    Run.preserved (I := fun r : StreamReassembler => r.Accounted ∧ r.capacity = capacity)
      (fun _ op h => ⟨(h.1.step op).1, (h.1.step op).2.trans h.2⟩) ⟨haccounted, rfl⟩ ops
  obtain ⟨hr, hcapacity⟩ := hr
  constructor
  · intro hops
    have hlimited : r.Limited :=
      Run.invariant (fun _ op h hop => h.step op hop)
        ⟨haccounted, by simp [StreamReassembler.held_new]⟩ hops
    exact hcapacity ▸ hlimited.total_le
  · intro data index eof hpush
    exact hcapacity ▸ hr.exceeds hpush

/-- The theorem on a run that reads one byte of a full output before the next byte is pushed. -/
theorem reassembler_memory_bound_of_within_after_read :
    let ops : List ReassemblerCall :=
      [.pushSubstring [1, 2] 0 false, .read 1, .pushSubstring [3] 2 false]
    let r := Run.exec StreamReassembler.step (StreamReassembler.new 2) ops
    Run.Always StreamReassembler.step StreamReassembler.WithinLimit (StreamReassembler.new 2) ops ∧
      r.output.bufferSize + r.unassembledBytes ≤ 2 := by
  intro ops r
  have hops : Run.Always StreamReassembler.step StreamReassembler.WithinLimit
      (StreamReassembler.new 2) ops := by decide
  exact ⟨hops, (reassembler_memory_bound_of_within (by decide) ops).1 hops⟩

/-- **A reassembler that holds twice its capacity.** Two bytes fill the output, and nobody reads
them; the next two bytes are stored in the ring all the same. -/
theorem reassembler_memory_bound_exceeded :
    let r := Run.exec StreamReassembler.step (StreamReassembler.new 2)
      [.pushSubstring [1, 2] 0 false, .pushSubstring [3, 4] 2 false]
    r.output.bufferSize = 2 ∧ r.unassembledBytes = 2 ∧
      ¬ r.output.bufferSize + r.unassembledBytes ≤ 2 := by
  decide

end Sponge
