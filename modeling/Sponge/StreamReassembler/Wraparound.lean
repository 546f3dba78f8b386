import Mathlib.Tactic
import Sponge.StreamReassembler.SparseMap

/-!
# The reassembler with 64-bit arithmetic

`push_substring` computes the ends of the window and of the substring as sums of `size_t`, and
subtracts from its counter what it has written. `pushSubstring64` is the function with this
arithmetic modulo `2 ^ 64`. As long as neither the substring nor the window reaches `2 ^ 64`, it is
the function on natural numbers, so that the reassembler refines the sparse map. The window can
reach `2 ^ 64` although no substring does; from then on the end of the window lies before its start,
and pushes store and deliver nothing.

## Main definitions

* `StreamReassembler.pushSubstring64`, `StreamReassembler.step64`: the calls with 64-bit arithmetic
* `ReassemblerCall.Addressable`: the substring ends below `2 ^ 64`
* `StreamReassembler.WindowFits`: so does the window

## Main results

* `StreamReassembler.Represents.step64`: a call is one of the abstract reassembler
* `StreamReassembler.pushSubstring64_of_wraps`: a push once the window has reached `2 ^ 64`
* `streamReassembler64_refines`: runs in which the window fits
* `streamReassembler64_wraps`: a run in which it does not
-/

namespace Sponge

namespace StreamReassembler

/-! ## The function with 64-bit arithmetic -/

/-- The storing loop. -/
def store64 (r : StreamReassembler) (data : List UInt8) (index : ℕ) : StreamReassembler :=
  let startIndex := max r.rpos index
  let endIndex := min ((r.rpos + r.capacity) % 2 ^ 64) ((index + data.length) % 2 ^ 64)
  (List.range' startIndex (endIndex - startIndex)).foldl (storeByte data index) r

/-- The loop over the occupied cells of the window. -/
def availLoop64 (r : StreamReassembler) : ℕ → ℕ → ℕ
  | 0, availEnd => availEnd
  | n + 1, availEnd =>
    if RingBuffer.get r.capacity r.bitMap availEnd false &&
        decide (availEnd < (r.rpos + r.capacity) % 2 ^ 64)
    then availLoop64 r n (availEnd + 1)
    else availEnd

def submit64 (r : StreamReassembler) : StreamReassembler :=
  let availEnd := r.availLoop64 r.capacity r.rpos
  if r.rpos < availEnd then
    let dataSubmit := (List.range' r.rpos (availEnd - r.rpos)).map
      fun i => RingBuffer.get r.capacity r.buffer i 0
    let (output, writtenBytes) := r.output.write dataSubmit
    { r with
      output := output
      bitMap := RingBuffer.fill r.capacity r.bitMap (fun _ => false) r.rpos writtenBytes
      rpos := (r.rpos + writtenBytes) % 2 ^ 64
      -- a difference below zero would wrap around
      unassembledBytes := (r.unassembledBytes + (2 ^ 64 - writtenBytes)) % 2 ^ 64 }
  else r

/-- Record the end of the stream. Before any is known, `eof_index` is `-1`, the largest number. -/
def finish64 (r : StreamReassembler) (endIndex : ℕ) (eof : Bool) : StreamReassembler :=
  let eofIndex := if eof then some endIndex else r.eofIndex
  { r with
    output :=
      if r.output.bytesWritten = eofIndex.getD (2 ^ 64 - 1) then r.output.endInput else r.output
    eofIndex := eofIndex }

/-- `push_substring` with 64-bit arithmetic. -/
def pushSubstring64 (r : StreamReassembler) (data : List UInt8) (index : ℕ) (eof : Bool) :
    StreamReassembler :=
  ((r.store64 data index).submit64).finish64 ((index + data.length) % 2 ^ 64) eof

/-- One call. -/
def step64 (r : StreamReassembler) : ReassemblerCall → StreamReassembler
  | .pushSubstring data index eof => r.pushSubstring64 data index eof
  | .read len => { r with output := (r.output.read len).1 }

end StreamReassembler

/-- The substring of a push ends below `2 ^ 64`. -/
def ReassemblerCall.Addressable : ReassemblerCall → Prop
  | .pushSubstring data index _ => index + data.length < 2 ^ 64
  | .read _ => True

instance : ∀ call : ReassemblerCall, Decidable call.Addressable
  | .pushSubstring _ _ _ => inferInstanceAs (Decidable (_ < _))
  | .read _ => isTrue trivial

namespace StreamReassembler

/-- A push is made while the window ends below `2 ^ 64`. -/
def WindowFits (r : StreamReassembler) : ReassemblerCall → Prop
  | .pushSubstring _ _ _ => r.output.bytesWritten + r.capacity < 2 ^ 64
  | .read _ => True

instance (r : StreamReassembler) : ∀ call, Decidable (r.WindowFits call)
  | .pushSubstring _ _ _ => inferInstanceAs (Decidable (_ < _))
  | .read _ => isTrue trivial

variable {r : StreamReassembler}

/-! ## As long as the window fits -/

section Fits

variable (hwindow : r.rpos + r.capacity < 2 ^ 64)

include hwindow

theorem store64_eq {data : List UInt8} {index : ℕ} (hdata : index + data.length < 2 ^ 64) :
    r.store64 data index = r.store data index := by
  unfold store64 store
  rw [Nat.mod_eq_of_lt hwindow, Nat.mod_eq_of_lt hdata]

theorem availLoop64_eq (n availEnd : ℕ) : r.availLoop64 n availEnd = r.availLoop n availEnd := by
  induction n generalizing availEnd with
  | zero => rfl
  | succ n ih => rw [availLoop64, availLoop, Nat.mod_eq_of_lt hwindow, ih]

/-- Neither the new base nor the counter wraps around. -/
theorem Accounted.submit64_eq (h : r.Accounted) : r.submit64 = r.submit := by
  have hwf := h.toWellFormed
  have havail := availLoop_eq (r := r) (n := r.capacity) (a := r.rpos) le_rfl rfl
  have hwritten : (r.output.write (Reassembly.contiguous r.pending r.rpos r.capacity)).2 =
      r.submission.length := congrArg List.length hwf.take_contiguous
  have hle := hwf.submission_length_le
  have hheld := h.submission_length_le_unassembledBytes
  have hcount := h.unassembledBytes_le
  have hrpos : (r.rpos + r.submission.length) % 2 ^ 64 = r.rpos + r.submission.length :=
    Nat.mod_eq_of_lt (by omega)
  have hdiff : (r.unassembledBytes + (2 ^ 64 - r.submission.length)) % 2 ^ 64 =
      r.unassembledBytes - r.submission.length := by omega
  unfold submit64 StreamReassembler.submit
  simp only [availLoop64_eq hwindow, havail, Nat.add_sub_cancel_left, map_get_eq_contiguous,
    hwritten, hrpos, hdiff]

end Fits

variable {capacity : ℕ} {a : SparseReassembler UInt8 capacity}

/-- **One call with 64-bit arithmetic** does to the ring and the output what it does to the map and
the queue, if the window fits. -/
theorem Represents.step64 (h : r.Represents a) {call : ReassemblerCall} (hcall : call.Addressable)
    (hwindow : r.WindowFits call) : (r.step64 call).Represents (call.onSparse a) := by
  cases call with
  | pushSubstring data index eof =>
    have hwindow : r.rpos + r.capacity < 2 ^ 64 := by
      rw [h.rpos_eq]
      exact hwindow
    have hstored : (r.store data index).rpos + (r.store data index).capacity < 2 ^ 64 := by
      rwa [store_rpos, store_capacity]
    have hsubmit : (r.store64 data index).submit64 = (r.store data index).submit := by
      rw [store64_eq hwindow hcall, (h.toAccounted.store data index).submit64_eq hstored]
    change ((r.store64 data index).submit64.finish64 _ eof).Represents (a.push data index)
    rw [hsubmit]
    exact (h.submit data index).finish _ _
  | read len => exact h.read len

/-- What one call keeps, a run keeps. -/
theorem represents_exec64 (hcap : 1 ≤ capacity) {calls : List ReassemblerCall}
    (hcalls : ∀ call ∈ calls, call.Addressable)
    (hwindow : Run.Always StreamReassembler.step64 WindowFits (new capacity) calls) :
    (Run.exec StreamReassembler.step64 (new capacity) calls).Represents
      (Run.exec ReassemblerCall.onSparse (SparseReassembler.new : SparseReassembler UInt8 capacity)
        calls) :=
  Run.simulation (fun _ _ _ h hcall => h.step64 hcall.1 hcall.2) (represents_new hcap)
    (Run.always_and.mpr ⟨Run.always_of_forall hcalls, hwindow⟩)

/-! ## Once the window has reached the end -/

/-- **Nothing is stored or delivered** once the end of the window has wrapped around: it lies before
the start. -/
theorem pushSubstring64_of_wraps (hrpos : r.rpos < 2 ^ 64) (hcapacity : r.capacity < 2 ^ 64)
    (hwraps : 2 ^ 64 ≤ r.rpos + r.capacity) (data : List UInt8) (index : ℕ) (eof : Bool) :
    r.pushSubstring64 data index eof = r.finish64 ((index + data.length) % 2 ^ 64) eof := by
  have hend : (r.rpos + r.capacity) % 2 ^ 64 < r.rpos := by omega
  have hstore : r.store64 data index = r := by
    have hempty : min ((r.rpos + r.capacity) % 2 ^ 64) ((index + data.length) % 2 ^ 64) -
        max r.rpos index = 0 := by omega
    unfold store64
    dsimp only
    rw [hempty]
    rfl
  have havail (n : ℕ) : r.availLoop64 n r.rpos = r.rpos := by
    cases n with
    | zero => rfl
    | succ n =>
      rw [availLoop64, decide_eq_false (Nat.not_lt_of_lt hend), Bool.and_false]
      rfl
  have hsubmit : r.submit64 = r := by
    unfold submit64
    dsimp only
    rw [havail, if_neg (Nat.lt_irrefl _)]
  rw [pushSubstring64, hstore, hsubmit]

theorem finish64_output_bytesWritten (endIndex : ℕ) (eof : Bool) :
    (r.finish64 endIndex eof).output.bytesWritten = r.output.bytesWritten := by
  unfold finish64
  dsimp only
  split_ifs <;> rfl

end StreamReassembler

/-! ## Runs -/

/-- **The reassembler with 64-bit arithmetic refines the sparse map** on every run of arbitrary
pushes and reads whose substrings end below `2 ^ 64`, as long as every push is made while
`bytes_written() + capacity` is below `2 ^ 64`, too. -/
theorem streamReassembler64_refines {capacity : ℕ} (hcap : 1 ≤ capacity)
    {calls : List ReassemblerCall} (hcalls : ∀ call ∈ calls, call.Addressable)
    (hwindow : Run.Always StreamReassembler.step64 StreamReassembler.WindowFits
      (StreamReassembler.new capacity) calls) :
    (Run.exec StreamReassembler.step64 (StreamReassembler.new capacity) calls).Refines
      (Run.exec ReassemblerCall.onSparse (SparseReassembler.new : SparseReassembler UInt8 capacity)
        calls) :=
  (StreamReassembler.represents_exec64 hcap hcalls hwindow).refines

/-- The theorem on a run in which the byte at index 1 arrives first and is overwritten, and its cell
is used again for the byte at index 3. -/
theorem streamReassembler64_refines_out_of_order :
    let calls : List ReassemblerCall :=
      [.pushSubstring [7] 1 false, .pushSubstring [8, 9] 1 false, .pushSubstring [6] 0 false,
        .read 1, .pushSubstring [5] 3 true]
    (∀ call ∈ calls, call.Addressable) ∧
      Run.Always StreamReassembler.step64 StreamReassembler.WindowFits (StreamReassembler.new 2)
        calls ∧
      (Run.exec StreamReassembler.step64 (StreamReassembler.new 2) calls).Refines
        (Run.exec ReassemblerCall.onSparse (SparseReassembler.new : SparseReassembler UInt8 2)
          calls) := by
  intro calls
  have hcalls : ∀ call ∈ calls, call.Addressable := by decide
  have hwindow : Run.Always StreamReassembler.step64 StreamReassembler.WindowFits
      (StreamReassembler.new 2) calls := by decide
  exact ⟨hcalls, hwindow, streamReassembler64_refines (by decide) hcalls hwindow⟩

/-! ## A window that reaches the end -/

/-- `n` single bytes, each of which is read before the next one is pushed. -/
def ReassemblerCall.oneByOne (n : ℕ) : List ReassemblerCall :=
  (List.range n).flatMap fun i => [.pushSubstring [0] i false, .read 1]

theorem ReassemblerCall.oneByOne_succ (n : ℕ) :
    oneByOne (n + 1) = oneByOne n ++ [.pushSubstring [0] n false, .read 1] := by
  rw [oneByOne, List.range_succ, List.flatMap_append]
  rfl

theorem ReassemblerCall.addressable_of_mem_oneByOne {n : ℕ} (hn : n < 2 ^ 64)
    {call : ReassemblerCall} (hcall : call ∈ oneByOne n) : call.Addressable := by
  rw [oneByOne, List.mem_flatMap] at hcall
  obtain ⟨i, hi, hcall⟩ := hcall
  rw [List.mem_range] at hi
  rw [List.mem_pair] at hcall
  rcases hcall with rfl | rfl
  · exact Nat.lt_of_le_of_lt hi hn
  · trivial

/-- After bytes one by one nothing waits, and the window starts behind them. -/
theorem ReassemblerCall.exec_oneByOne {capacity : ℕ} (hcap : 0 < capacity) (n : ℕ) :
    Run.exec onSparse (SparseReassembler.new : SparseReassembler UInt8 capacity) (oneByOne n) =
      ⟨.empty n, .empty⟩ := by
  induction n with
  | zero => rfl
  | succ n ih =>
    rw [oneByOne_succ, Run.exec_append, ih]
    change ((⟨.empty n, .empty⟩ : SparseReassembler UInt8 capacity).push [0] n).read 1 = _
    rw [SparseReassembler.push_next hcap, SparseReassembler.read, BoundedQueue.pop_put_singleton]

namespace StreamReassembler

/-- Bytes one by one can be pushed until the window reaches `2 ^ 64`. -/
theorem always_windowFits_oneByOne {capacity n : ℕ} (hcap : 0 < capacity)
    (hn : n + capacity ≤ 2 ^ 64) :
    Run.Always step64 WindowFits (new capacity) (ReassemblerCall.oneByOne n) := by
  -- induction on the bytes: the run so far is represented, which tells the base of its window
  induction n with
  | zero => trivial
  | succ n ih =>
    have hfits := ih (by omega)
    have hrun := represents_exec64 hcap
      (fun _ => ReassemblerCall.addressable_of_mem_oneByOne (by omega)) hfits
    rw [ReassemblerCall.exec_oneByOne hcap] at hrun
    rw [ReassemblerCall.oneByOne_succ, Run.always_append]
    refine ⟨hfits, ?_, trivial, trivial⟩
    change ByteStream.bytesWritten _ + _ < _
    rw [hrun.refines.bytesWritten_eq, hrun.capacity_eq]
    change n + capacity < 2 ^ 64
    omega

/-- The first byte that the window is too far advanced for. -/
theorem wraps_after {n : ℕ} (hn : n + 2 = 2 ^ 64) :
    let calls := ReassemblerCall.oneByOne n ++ [.pushSubstring [0] n false]
    let r := Run.exec step64 (new 2) calls
    let a := Run.exec ReassemblerCall.onSparse
      (SparseReassembler.new : SparseReassembler UInt8 2) calls
    (∀ call ∈ calls, call.Addressable) ∧
      r.output.bytesWritten = n ∧ a.waiting.base = n + 1 ∧ ¬ r.Refines a := by
  intro calls r a
  -- up to the last push the window fits, and nothing waits
  have hbefore {call : ReassemblerCall} (hcall : call ∈ ReassemblerCall.oneByOne n) :
      call.Addressable := ReassemblerCall.addressable_of_mem_oneByOne (by omega) hcall
  have hrun : (Run.exec step64 (new 2) (ReassemblerCall.oneByOne n)).Represents
      (Run.exec ReassemblerCall.onSparse (SparseReassembler.new : SparseReassembler UInt8 2)
        (ReassemblerCall.oneByOne n)) :=
    represents_exec64 (by omega) (fun _ => hbefore) (always_windowFits_oneByOne (by omega) hn.le)
  rw [ReassemblerCall.exec_oneByOne (by omega)] at hrun
  have hcapacity := hrun.capacity_eq
  have hbase : _ = n := hrun.base_eq
  -- the last push finds the end of the window before its start
  have hwritten : r.output.bytesWritten = n := by
    change (Run.exec step64 (new 2) (ReassemblerCall.oneByOne n ++ _)).output.bytesWritten = n
    rw [Run.exec_append]
    change (pushSubstring64 _ [0] n false).output.bytesWritten = n
    rw [pushSubstring64_of_wraps (by omega) (by omega) (by omega), finish64_output_bytesWritten]
    exact hrun.refines.bytesWritten_eq
  have hpassed : a.waiting.base = n + 1 := by
    change (Run.exec ReassemblerCall.onSparse _ (ReassemblerCall.oneByOne n ++ _)).waiting.base = _
    rw [Run.exec_append, ReassemblerCall.exec_oneByOne (by omega)]
    change (SparseReassembler.push _ [0] n).waiting.base = n + 1
    rw [SparseReassembler.push_next (by omega)]
    rfl
  refine ⟨?_, hwritten, hpassed, fun hrefines => ?_⟩
  · intro call hcall
    rw [List.mem_append, List.mem_singleton] at hcall
    rcases hcall with hcall | rfl
    · exact hbefore hcall
    · change n + 1 < 2 ^ 64
      omega
  · have heq := hrefines.bytesWritten_eq
    omega

end StreamReassembler

/-- **The window wraps around.** A reassembler of capacity 2 has written `2 ^ 64 - 2` bytes. The
next byte ends below `2 ^ 64` and is in the window, but `rpos + _capacity` is zero modulo `2 ^ 64`:
the byte is dropped, where the sparse map passes it on. -/
theorem streamReassembler64_wraps :
    let calls := ReassemblerCall.oneByOne (2 ^ 64 - 2) ++ [.pushSubstring [0] (2 ^ 64 - 2) false]
    let r := Run.exec StreamReassembler.step64 (StreamReassembler.new 2) calls
    let a := Run.exec ReassemblerCall.onSparse
      (SparseReassembler.new : SparseReassembler UInt8 2) calls
    (∀ call ∈ calls, call.Addressable) ∧
      r.output.bytesWritten = 2 ^ 64 - 2 ∧ a.waiting.base = 2 ^ 64 - 1 ∧ ¬ r.Refines a :=
  StreamReassembler.wraps_after (by norm_num)

end Sponge
