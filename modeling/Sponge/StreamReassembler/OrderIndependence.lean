import Mathlib.Tactic
import Sponge.StreamReassembler.Bounds
import Sponge.StreamReassembler.Memory

/-!
# The order of the pushes

For a stream `S` that fits the capacity, what the reassembler has done is a function of the set of
indices that its pushes have covered: the output has received the longest covered prefix, the ring
holds what is covered beyond it, and the output has ended once the end was announced and everything
is covered. Neither the order of the pushes nor their multiplicity nor the reads in between matter.
A reassembler without capacity is the exception: any push makes it divide by zero, even that of the
empty stream.

## Main definitions

* `covered ops`: the stream indices that the pushes of `ops` cover
* `ReassemblerTrace.Covers S t c`: the trace is that of pushes that cover the indices `c`
* `ReassemblerTrace.runChecked`: a run with every modulo and every access checked

## Main results

* `ReassemblerTrace.Covers.step`: one call covers the indices of its push
* `ReassemblerTrace.Covers.exec`: a run covers the indices of its pushes
* `reassembly_order_independent`, `reassembly_divides_by_zero`: which runs depend only on the set of
  their pushes
-/

namespace Sponge

open Checked (Fault)

/-- A push of `S[i..j)` that announces the end exactly if it reaches the end of `S`. -/
def ReassemblerOp.Faithful (S : List UInt8) : ReassemblerOp → Prop
  | .pushSubstring i j eof => i ≤ j ∧ j ≤ S.length ∧ (eof = true ↔ j = S.length)
  | .read _ => True

instance (S : List UInt8) : ∀ op : ReassemblerOp, Decidable (op.Faithful S)
  | .pushSubstring _ _ _ => inferInstanceAs (Decidable (_ ∧ _))
  | .read _ => isTrue trivial

theorem ReassemblerOp.Faithful.excerptOf {S : List UInt8} {op : ReassemblerOp}
    (h : op.Faithful S) : op.ExcerptOf S := by
  cases op with
  | pushSubstring i j eof => exact ⟨h.1, h.2.1, h.2.2.mp⟩
  | read len => trivial

/-- The stream indices of a push. -/
def ReassemblerOp.indices : ReassemblerOp → Finset ℕ
  | .pushSubstring i j _ => Finset.Ico i j
  | .read _ => ∅

/-- The stream indices that the pushes of a run cover. -/
def covered (ops : List ReassemblerOp) : Finset ℕ :=
  ops.toFinset.biUnion ReassemblerOp.indices

theorem covered_cons (op : ReassemblerOp) (ops : List ReassemblerOp) :
    covered (op :: ops) = op.indices ∪ covered ops := by
  rw [covered, List.toFinset_cons, Finset.biUnion_insert, covered]

namespace ReassemblerTrace

variable {S : List UInt8} {t : ReassemblerTrace} {c : Finset ℕ}

/-- The trace is that of pushes of `S` that cover the indices `c`: the output has received the
covered prefix, and the ring holds what is covered beyond it. -/
structure Covers (S : List UInt8) (t : ReassemblerTrace) (c : Finset ℕ) : Prop where
  assembles : t.Assembles S
  accounted : t.reassembler.Accounted
  length_le : S.length ≤ t.reassembler.capacity
  lt_length : ∀ i ∈ c, i < S.length
  written : ∀ i < t.reassembler.rpos, i ∈ c
  missing : t.reassembler.rpos ∉ c
  mem_held_iff : ∀ i, i ∈ t.reassembler.held ↔ i ∈ c ∧ t.reassembler.rpos ≤ i

theorem covers_new (S : List UInt8) {capacity : ℕ} (h : 0 < capacity)
    (hlen : S.length ≤ capacity) : (new capacity).Covers S ∅ where
  assembles := StreamReassembler.assembles_new S h
  accounted := StreamReassembler.accounted_new h
  length_le := hlen
  lt_length := by simp
  written := fun i hi => absurd hi (Nat.not_lt_zero i)
  missing := by simp
  mem_held_iff := fun i => by
    change i ∈ (StreamReassembler.new capacity).held ↔ _
    simp [StreamReassembler.held_new]

/-- What is covered fits the output and the window. -/
theorem Covers.length_le_add (h : t.Covers S c) :
    S.length ≤ t.reassembler.rpos + t.reassembler.output.remainingCapacity := by
  have hwf := h.accounted.toWellFormed
  have hle := h.length_le
  have hcap := hwf.output_capacity
  have hcount := hwf.output.nwritten_eq
  have hrpos := hwf.rpos_eq
  unfold ByteStream.remainingCapacity
  omega

section Push

variable (h : t.Covers S c) {i j : ℕ} (hij : i ≤ j) (hj : j ≤ S.length)

include h hij hj

/-- What the storing loop leaves in the ring. -/
theorem Covers.isSome_inserted_iff (k : ℕ) :
    (t.reassembler.inserted ((S.drop i).take (j - i)) i k).isSome = true ↔
      k ∈ Finset.Ico i j ∪ c ∧ t.reassembler.rpos ≤ k := by
  have hlen : ((S.drop i).take (j - i)).length = j - i := by
    rw [List.length_take, List.length_drop]
    omega
  have hheld := h.mem_held_iff k
  have hle := h.length_le
  rw [StreamReassembler.mem_held_iff_pending] at hheld
  rw [Finset.mem_union, Finset.mem_Ico, StreamReassembler.inserted, Reassembly.insert, hlen]
  split_ifs with hin
  · have hlt : k - i < ((S.drop i).take (j - i)).length := by omega
    rw [List.getElem?_eq_getElem hlt]
    exact iff_of_true rfl ⟨Or.inl (by omega), hin.1⟩
  · -- an index of the push that is not stored is written already
    rw [hheld]
    refine and_congr_left fun hk => (or_iff_right fun hmem => hin ?_).symm
    omega

omit hij in
theorem Covers.lt_length_push (k : ℕ) (hk : k ∈ Finset.Ico i j ∪ c) : k < S.length := by
  rw [Finset.mem_union, Finset.mem_Ico] at hk
  rcases hk with hk | hk
  · omega
  · exact h.lt_length k hk

/-- What is delivered was in the ring. -/
theorem Covers.mem_of_delivered {m : ℕ}
    (hm : m < (t.reassembler.delivered ((S.drop i).take (j - i)) i).length) :
    t.reassembler.rpos + m ∈ Finset.Ico i j ∪ c := by
  have hget : (t.reassembler.delivered ((S.drop i).take (j - i)) i)[m]? =
      t.reassembler.inserted ((S.drop i).take (j - i)) i (t.reassembler.rpos + m) :=
    Reassembly.getElem?_contiguous hm
  refine ((h.isSome_inserted_iff hij hj _).mp ?_).1
  rw [← hget, List.getElem?_eq_getElem hm]
  rfl

/-- The run that is delivered stops at a missing index, or where the stream ends. -/
theorem Covers.notMem_after_delivered :
    t.reassembler.rpos + (t.reassembler.delivered ((S.drop i).take (j - i)) i).length ∉
      Finset.Ico i j ∪ c := by
  intro hmem
  have hroom := h.length_le_add
  have hend := h.lt_length_push hj _ hmem
  rcases Reassembly.contiguous_stops (t.reassembler.inserted ((S.drop i).take (j - i)) i)
    t.reassembler.rpos t.reassembler.output.remainingCapacity with hfull | hnone
  · have hdelivered : (t.reassembler.delivered ((S.drop i).take (j - i)) i).length =
        t.reassembler.output.remainingCapacity := hfull
    omega
  · have hsome := (h.isSome_inserted_iff hij hj _).mpr ⟨hmem, Nat.le_add_right _ _⟩
    rw [StreamReassembler.delivered, hnone] at hsome
    cases hsome

/-- **One push** covers its indices. -/
theorem Covers.pushSubstring {eof : Bool} (heof : eof = true ↔ j = S.length) :
    (t.step S (.pushSubstring i j eof)).Covers S (Finset.Ico i j ∪ c) := by
  have hwf := h.accounted.toWellFormed
  have hins := h.isSome_inserted_iff hij hj
  have hdelivered {m : ℕ} := h.mem_of_delivered hij hj (m := m)
  have hstops := h.notMem_after_delivered hij hj
  set data := (S.drop i).take (j - i) with hdata
  have hrpos : (t.step S (.pushSubstring i j eof)).reassembler.rpos =
      t.reassembler.rpos + (t.reassembler.delivered data i).length :=
    hwf.pushSubstring_rpos data i eof
  refine ⟨step_assembles t _ h.assembles ⟨hij, hj, heof.mp⟩,
    (h.accounted.pushSubstring_total data i eof).1, ?_, h.lt_length_push hj, ?_, ?_, ?_⟩
  · exact h.length_le.trans_eq (hwf.pushSubstring_capacity data i eof).symm
  · intro k hk
    rw [hrpos] at hk
    rcases Nat.lt_or_ge k t.reassembler.rpos with hold | hnew
    · exact Finset.mem_union_right _ (h.written k hold)
    · obtain ⟨m, rfl⟩ := Nat.exists_eq_add_of_le hnew
      exact hdelivered (by omega)
  · rwa [hrpos]
  · intro k
    rw [hrpos, StreamReassembler.mem_held_iff_pending]
    change ((t.reassembler.pushSubstring data i eof).pending k).isSome = true ↔ _
    rw [hwf.pending_pushSubstring]
    split_ifs with hk
    · rw [hins]
      exact and_congr_right fun _ => iff_of_true (by omega) hk
    · exact iff_of_false (by simp) fun hmem => hk hmem.2

end Push

theorem Covers.step (h : t.Covers S c) {op : ReassemblerOp} (hop : op.Faithful S) :
    (t.step S op).Covers S (op.indices ∪ c) := by
  cases op with
  | pushSubstring i j eof => exact h.pushSubstring hop.1 hop.2.1 hop.2.2
  | read len =>
    rw [ReassemblerOp.indices, Finset.empty_union]
    exact ⟨step_assembles t _ h.assembles trivial, (h.accounted.step (.read len)).1, h.length_le,
      h.lt_length, h.written, h.missing, h.mem_held_iff⟩

/-- **A run covers the indices of its pushes.** -/
theorem Covers.exec (h : t.Covers S c) {ops : List ReassemblerOp}
    (hops : ∀ op ∈ ops, op.Faithful S) :
    (Run.exec (ReassemblerTrace.step S) t ops).Covers S (covered ops ∪ c) := by
  induction ops generalizing t c with
  | nil => simpa [covered] using h
  | cons op ops ih =>
    obtain ⟨hop, hops⟩ := List.forall_mem_cons.mp hops
    have hrest := ih (h.step hop) hops
    rwa [← Finset.union_assoc, Finset.union_comm (covered ops), ← covered_cons] at hrest

/-! ## The outcome of a run -/

/-- What a run shows of the indices `c` that its pushes cover. -/
structure Outcome (S : List UInt8) (t : ReassemblerTrace) (c : Finset ℕ) : Prop where
  bytesWritten_eq : t.reassembler.output.bytesWritten = Reassembly.firstMissing c
  written_eq : t.written = S.take (Reassembly.firstMissing c)
  unassembledBytes_eq :
    t.reassembler.unassembledBytes = (c.filter (Reassembly.firstMissing c ≤ ·)).card
  inputEnded_iff :
    t.reassembler.output.inputEnded = true ↔ t.eofPushed = true ∧ ∀ i < S.length, i ∈ c

theorem Covers.outcome (h : t.Covers S c) : t.Outcome S c := by
  have hfirst : Reassembly.firstMissing c = t.reassembler.rpos :=
    Reassembly.firstMissing_eq h.written h.missing
  have hrpos : t.reassembler.rpos = t.reassembler.output.nwritten :=
    h.accounted.toWellFormed.rpos_eq
  refine ⟨?_, ?_, ?_, ?_⟩
  · rw [hfirst, hrpos]
    rfl
  · rw [hfirst, hrpos]
    exact h.assembles.written_eq
  · have hheld : t.reassembler.held = c.filter (Reassembly.firstMissing c ≤ ·) := by
      ext i
      rw [h.mem_held_iff, Finset.mem_filter, hfirst]
    rw [h.accounted.unassembledBytes_eq, hheld]
  · rw [h.assembles.inputEnded_iff, ← hrpos]
    refine and_congr_right fun _ => ⟨fun hend i hi => h.written i (by omega), fun hall => ?_⟩
    -- the first missing index is not one of the stream
    have hle := h.assembles.nwritten_le
    have hge : ¬t.reassembler.rpos < S.length := fun hlt => h.missing (hall _ hlt)
    omega

/-- The trace of a reassembler without capacity before any push. -/
structure Vacant (t : ReassemblerTrace) : Prop where
  capacity_eq : t.reassembler.capacity = 0
  unassembledBytes_eq : t.reassembler.unassembledBytes = 0
  nwritten_eq : t.reassembler.output.nwritten = 0
  written_eq : t.written = []
  inputEnded_eq : t.reassembler.output.inputEnded = false
  eofPushed_eq : t.eofPushed = false

theorem vacant_new : (new 0).Vacant := ⟨rfl, rfl, rfl, rfl, rfl, rfl⟩

theorem Vacant.step_read (h : t.Vacant) (len : ℕ) : (t.step S (.read len)).Vacant :=
  ⟨h.capacity_eq, h.unassembledBytes_eq, h.nwritten_eq, h.written_eq, h.inputEnded_eq,
    h.eofPushed_eq⟩

theorem Vacant.outcome (h : t.Vacant) : t.Outcome S ∅ := by
  have hfirst : Reassembly.firstMissing ∅ = 0 :=
    Reassembly.firstMissing_eq (fun i hi => absurd hi (Nat.not_lt_zero i)) (by simp)
  refine ⟨h.nwritten_eq.trans hfirst.symm, ?_, ?_, ?_⟩
  · rw [hfirst, List.take_zero, h.written_eq]
  · rw [h.unassembledBytes_eq, Finset.filter_empty, Finset.card_empty]
  · simp [h.inputEnded_eq, h.eofPushed_eq]

/-! ## Checked runs -/

/-- One call, with every modulo and every access of `push_substring` checked. -/
def stepChecked (S : List UInt8) (t : ReassemblerTrace) :
    ReassemblerOp → Except Fault ReassemblerTrace
  | .pushSubstring i j eof => do
    let r ← t.reassembler.pushSubstringChecked ((S.drop i).take (j - i)) i eof
    return {
      reassembler := r
      written := t.written ++ r.output.buffer.drop t.reassembler.output.buffer.length
      eofPushed := t.eofPushed || eof }
  | .read len => return t.step S (.read len)

/-- A run from the start, with every modulo and every access checked. -/
def runChecked (S : List UInt8) (capacity : ℕ) (ops : List ReassemblerOp) :
    Except Fault ReassemblerTrace :=
  ops.foldlM (stepChecked S) (new capacity)

/-- With capacity nothing goes wrong in a call. -/
theorem stepChecked_eq (h : t.Assembles S) {op : ReassemblerOp} (hop : op.ExcerptOf S) :
    t.stepChecked S op = .ok (t.step S op) ∧ (t.step S op).Assembles S := by
  refine ⟨?_, step_assembles t op h hop⟩
  cases op with
  | read len => rfl
  | pushSubstring i j eof =>
    have hwf : t.reassembler.WellFormed := h.wellFormed
    rw [stepChecked, hwf.pushSubstringChecked_eq]
    rfl

/-- Without capacity a run without faults has no push. -/
theorem Vacant.notMem_of_ok {t' : ReassemblerTrace} {ops : List ReassemblerOp} (h : t.Vacant)
    (hok : ops.foldlM (stepChecked S) t = .ok t') (i j : ℕ) (eof : Bool) :
    ReassemblerOp.pushSubstring i j eof ∉ ops := by
  induction ops generalizing t with
  | nil => exact List.not_mem_nil
  | cons op ops ih =>
    rw [List.foldlM_cons] at hok
    cases op with
    | read len =>
      rw [List.mem_cons, not_or]
      exact ⟨nofun, ih (h.step_read len) hok⟩
    | pushSubstring i' j' eof' =>
      -- the first push divides by zero
      rw [stepChecked, StreamReassembler.pushSubstringChecked_of_capacity_eq_zero h.capacity_eq]
        at hok
      cases hok

/-- **The outcome of a run** without faults is that of the indices its pushes cover. -/
theorem outcome_runChecked {capacity : ℕ} (hcap : S.length ≤ capacity) {ops : List ReassemblerOp}
    (hops : ∀ op ∈ ops, op.Faithful S)
    (hdiv : capacity ≠ 0 ∨ ∀ i j eof, ReassemblerOp.pushSubstring i j eof ∉ ops) :
    runChecked S capacity ops = .ok (Run.exec (ReassemblerTrace.step S) (new capacity) ops) ∧
      (Run.exec (ReassemblerTrace.step S) (new capacity) ops).Outcome S (covered ops) := by
  rcases Nat.eq_zero_or_pos capacity with rfl | hpos
  · -- only reads, which neither fail nor cover anything
    have hreads : ∀ op ∈ ops, ∃ len, op = .read len := by
      intro op hop
      cases op with
      | read len => exact ⟨len, rfl⟩
      | pushSubstring i j eof => exact absurd hop (hdiv.resolve_left (absurd rfl) i j eof)
    have hcovered : covered ops = ∅ := by
      refine Finset.eq_empty_of_forall_notMem fun k hk => ?_
      obtain ⟨op, hmem, hop⟩ := Finset.mem_biUnion.mp hk
      obtain ⟨len, rfl⟩ := hreads op (List.mem_toFinset.mp hmem)
      simp [ReassemblerOp.indices] at hop
    have hvacant : (Run.exec (ReassemblerTrace.step S) (new 0) ops).Vacant := by
      refine Run.invariant (P := fun _ op => ∃ len, op = .read len) ?_ vacant_new
        (Run.always_of_forall hreads)
      rintro t op h ⟨len, rfl⟩
      exact h.step_read len
    refine ⟨Checked.foldlM_eq_ok (I := fun _ => True) ?_ trivial, hcovered ▸ hvacant.outcome⟩
    intro t op hop _
    obtain ⟨len, rfl⟩ := hreads op hop
    exact ⟨rfl, trivial⟩
  · -- no call fails, so that the run is the plain one, which covers what its pushes cover
    have hrun := (covers_new S hpos hcap).exec hops
    rw [Finset.union_empty] at hrun
    refine ⟨Checked.foldlM_eq_ok (I := fun t => t.Assembles S) ?_
      (StreamReassembler.assembles_new S hpos), hrun.outcome⟩
    exact fun t op hop h => stepChecked_eq h (hops op hop).excerptOf

theorem exec_eofPushed_iff (ops : List ReassemblerOp) :
    (Run.exec (ReassemblerTrace.step S) t ops).eofPushed = true ↔
      t.eofPushed = true ∨ ∃ i j, ReassemblerOp.pushSubstring i j true ∈ ops := by
  induction ops generalizing t with
  | nil => simp
  | cons op ops ih =>
    rw [Run.exec_cons, ih]
    cases op with
    | read len => simp [ReassemblerTrace.step]
    | pushSubstring i j eof =>
      cases eof with
      | false => simp [ReassemblerTrace.step]
      | true => exact iff_of_true (by simp [ReassemblerTrace.step]) (Or.inr ⟨i, j, by simp⟩)

end ReassemblerTrace

theorem mem_covered_iff {ops : List ReassemblerOp} {k : ℕ} :
    k ∈ covered ops ↔
      ∃ i j eof, ReassemblerOp.pushSubstring i j eof ∈ ops ∧ i ≤ k ∧ k < j := by
  rw [covered, Finset.mem_biUnion]
  constructor
  · rintro ⟨op, hmem, hk⟩
    cases op with
    | read len => simp [ReassemblerOp.indices] at hk
    | pushSubstring i j eof =>
      exact ⟨i, j, eof, List.mem_toFinset.mp hmem, Finset.mem_Ico.mp hk⟩
  · rintro ⟨i, j, eof, hmem, hk⟩
    exact ⟨_, List.mem_toFinset.mpr hmem, Finset.mem_Ico.mpr hk⟩

/-- **Order independence of reassembly.** On runs of pushes of a stream `S` that fits the capacity,
interleaved with reads, the output has received the longest covered prefix of `S`, the ring holds
what is covered beyond it, and the output has ended exactly if the end was announced and all of `S`
is covered; two runs with the same set of pushes end alike. This holds exactly if there is capacity
or nothing is pushed: otherwise the run fails, since a push divides by zero. -/
theorem reassembly_order_independent (S : List UInt8) (capacity : ℕ) (hcap : S.length ≤ capacity)
    (ops ops' : List ReassemblerOp) (hops : ∀ op ∈ ops, op.Faithful S)
    (hops' : ∀ op ∈ ops', op.Faithful S)
    (hsame : ∀ i j eof, ReassemblerOp.pushSubstring i j eof ∈ ops ↔
      ReassemblerOp.pushSubstring i j eof ∈ ops') :
    let n := Reassembly.firstMissing (covered ops)
    (∃ t t', ReassemblerTrace.runChecked S capacity ops = .ok t ∧
        ReassemblerTrace.runChecked S capacity ops' = .ok t' ∧
        (t.reassembler.output.bytesWritten = n ∧ t.written = S.take n ∧
          t.reassembler.unassembledBytes = ((covered ops).filter (n ≤ ·)).card ∧
          (t.reassembler.output.inputEnded = true ↔
            (∃ i j, ReassemblerOp.pushSubstring i j true ∈ ops) ∧
              ∀ i < S.length, i ∈ covered ops)) ∧
        t'.reassembler.output.bytesWritten = t.reassembler.output.bytesWritten ∧
        t'.written = t.written ∧
        t'.reassembler.unassembledBytes = t.reassembler.unassembledBytes ∧
        t'.reassembler.output.inputEnded = t.reassembler.output.inputEnded) ↔
      (capacity ≠ 0 ∨ ∀ i j eof, ReassemblerOp.pushSubstring i j eof ∉ ops) := by
  intro n
  constructor
  · rintro ⟨t, t', hok, -⟩
    rcases Nat.eq_zero_or_pos capacity with rfl | hpos
    · exact Or.inr (ReassemblerTrace.vacant_new.notMem_of_ok hok)
    · exact Or.inl hpos.ne'
  · intro hdiv
    have hdiv' : capacity ≠ 0 ∨ ∀ i j eof, ReassemblerOp.pushSubstring i j eof ∉ ops' :=
      hdiv.imp_right fun hnone i j eof hmem => hnone i j eof ((hsame i j eof).mpr hmem)
    obtain ⟨hok, h⟩ := ReassemblerTrace.outcome_runChecked hcap hops hdiv
    obtain ⟨hok', h'⟩ := ReassemblerTrace.outcome_runChecked hcap hops' hdiv'
    -- the two runs cover the same indices, and announce the end alike
    have hcovered : covered ops' = covered ops := by
      ext k
      simp only [mem_covered_iff, hsame]
    have heof (ops : List ReassemblerOp) :
        (Run.exec (ReassemblerTrace.step S) (ReassemblerTrace.new capacity) ops).eofPushed = true ↔
          ∃ i j, ReassemblerOp.pushSubstring i j true ∈ ops :=
      (ReassemblerTrace.exec_eofPushed_iff ops).trans
        (or_iff_right (by simp [ReassemblerTrace.new]))
    rw [hcovered] at h'
    refine ⟨_, _, hok, hok', ⟨h.bytesWritten_eq, h.written_eq, h.unassembledBytes_eq, ?_⟩,
      h'.bytesWritten_eq.trans h.bytesWritten_eq.symm, h'.written_eq.trans h.written_eq.symm,
      h'.unassembledBytes_eq.trans h.unassembledBytes_eq.symm, ?_⟩
    · rw [h.inputEnded_iff, heof]
    · rw [Bool.eq_iff_iff, h'.inputEnded_iff, h.inputEnded_iff, heof, heof]
      simp only [hsame]

/-- Two runs with the same pushes, one of them reading in between and the other with a duplicate. -/
theorem reassembly_order_independent_swapped :
    let S : List UInt8 := [1, 2, 3]
    ∃ t t', ReassemblerTrace.runChecked S 3
        [.pushSubstring 1 3 true, .read 4, .pushSubstring 0 2 false] = .ok t ∧
      ReassemblerTrace.runChecked S 3
        [.pushSubstring 0 2 false, .pushSubstring 1 3 true, .pushSubstring 0 2 false] = .ok t' ∧
      t'.written = t.written ∧
      t'.reassembler.output.inputEnded = t.reassembler.output.inputEnded := by
  intro S
  obtain ⟨t, t', hok, hok', -, -, hwritten, -, hended⟩ :=
    (reassembly_order_independent S 3 (by decide)
      [.pushSubstring 1 3 true, .read 4, .pushSubstring 0 2 false]
      [.pushSubstring 0 2 false, .pushSubstring 1 3 true, .pushSubstring 0 2 false]
      (by decide) (by decide) (by simp only [List.mem_cons]; grind)).mpr (Or.inl (by decide))
  exact ⟨t, t', hok, hok', hwritten, hended⟩

/-- **The empty stream without capacity.** Its only push, that of its end, divides by zero. -/
theorem reassembly_divides_by_zero :
    ([] : List UInt8).length ≤ 0 ∧ (ReassemblerOp.pushSubstring 0 0 true).Faithful [] ∧
      ReassemblerTrace.runChecked [] 0 [.pushSubstring 0 0 true] =
        .error .divisionByZero :=
  ⟨Nat.le_refl _, by decide, rfl⟩

end Sponge
