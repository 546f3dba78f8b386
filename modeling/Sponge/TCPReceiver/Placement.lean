import Mathlib.Tactic
import Sponge.Foundations.Run
import Sponge.TCPReceiver

/-!
# Where the receiver puts the bytes of a segment

The receiver checks whether some part of a segment lies in its window, and then hands the whole
payload to the reassembler, which has a window of its own: as wide as the capacity, from the first
byte not yet written. The stream index of the payload is computed from the sequence number alone,
whether or not SYN occupies it. `placements` lists what the storing loop writes, byte by byte, and
both consequences are stated exactly, for arbitrary segments: when all bytes that are stored lie in
the advertised window, and when each of them lands at its own index.

## Main definitions

* `TCPReceiver.passedOn`: the absolute number of a segment that reaches the reassembler
* `TCPReceiver.placements`: which payload byte goes to which stream index
* `ReceiverCall`, `TCPReceiver.step`: a receiver against an arbitrary peer

## Main results

* `TCPReceiver.segmentReceived_eq`: what an arbitrary segment does
* `window_edge_respected_iff`, `window_edge_overrun`: bytes beyond the advertised window
* `bytes_at_own_index_iff`, `byte_at_syn_position_placed`: bytes at a foreign index
-/

namespace Sponge

/-- The sequence numbers of a segment before its payload: one if it has SYN. -/
def TCPSegment.payloadOffset (seg : TCPSegment) : ℕ := if seg.header.syn then 1 else 0

theorem TCPSegment.payloadOffset_le (seg : TCPSegment) : seg.payloadOffset ≤ 1 := by
  unfold payloadOffset
  split_ifs <;> omega

theorem TCPSegment.payloadOffset_eq_one_iff {seg : TCPSegment} :
    seg.payloadOffset = 1 ↔ seg.header.syn = true := by
  unfold payloadOffset
  split_ifs with hsyn <;> simp [hsyn]

/-! ## The writes of the storing loop -/

namespace StreamReassembler

variable (r : StreamReassembler) (data : List UInt8) (index : ℕ)

/-- Write byte `p.1` of `data` to stream index `p.2`. -/
def placeByte (data : List UInt8) (r : StreamReassembler) (p : ℕ × ℕ) : StreamReassembler :=
  { r with
    buffer := RingBuffer.put r.capacity r.buffer p.2 (data.getD p.1 0)
    bitMap := RingBuffer.put r.capacity r.bitMap p.2 true
    unassembledBytes :=
      if RingBuffer.get r.capacity r.bitMap p.2 false then r.unassembledBytes
      else r.unassembledBytes + 1 }

/-- The writes of the storing loop: which byte of `data` goes to which stream index. -/
def placements : List (ℕ × ℕ) :=
  let startIndex := max r.rpos index
  let endIndex := min (r.rpos + r.capacity) (index + data.length)
  (List.range' startIndex (endIndex - startIndex)).map fun i => (i - index, i)

/-- **The storing loop makes these writes**, and no others. -/
theorem store_eq_foldl_placeByte :
    r.store data index = (r.placements data index).foldl (placeByte data) r := by
  rw [placements, List.foldl_map]
  rfl

variable {r data index}

theorem mem_placements {k i : ℕ} :
    (k, i) ∈ r.placements data index ↔
      i = index + k ∧ k < data.length ∧ r.rpos ≤ i ∧ i < r.rpos + r.capacity := by
  simp only [placements, List.mem_map, List.mem_range'_1, Prod.mk.injEq]
  constructor
  · rintro ⟨j, hj, rfl, rfl⟩
    omega
  · rintro ⟨rfl, hk, hlo, hhi⟩
    exact ⟨index + k, by omega, by omega, rfl⟩

end StreamReassembler

namespace TCPReceiver

variable {r : TCPReceiver} {seg : TCPSegment} {a : ℕ}

/-! ## What an arbitrary segment does -/

/-- The absolute number to which the sequence number of a segment unwraps, once the initial sequence
number is known. -/
def absSeq (r : TCPReceiver) (seg : TCPSegment) : Option ℕ :=
  (r.learnIsn seg).map fun isn => unwrap seg.header.seqno isn r.streamOut.bytesWritten

/-- The absolute number of a segment whose payload reaches the reassembler: some part of it lies in
the window, and it is not an empty segment past the FIN. -/
def passedOn (r : TCPReceiver) (seg : TCPSegment) : Option ℕ :=
  (r.absSeq seg).filter fun absSeq =>
    decide (r.InWindow absSeq seg) &&
      !decide (r.finAbsSeq ≠ 0 ∧ r.finAbsSeq ≤ absSeq ∧ seg.lengthInSequenceSpace = 0)

/-- Nothing is passed on before the initial sequence number is known. -/
theorem passedOn_eq_none (h : r.learnIsn seg = none) : r.passedOn seg = none := by
  rw [passedOn, absSeq, h]
  rfl

theorem absSeq_of_learnIsn {isn : WrappingInt32} (h : r.learnIsn seg = some isn) :
    r.absSeq seg = some (unwrap seg.header.seqno isn r.streamOut.bytesWritten) := by
  rw [absSeq, h, Option.map_some]

/-- The tests of the source: an empty segment past the FIN returns early, and the window decides
about the rest. -/
theorem passedOn_of_absSeq (h : r.absSeq seg = some a) :
    r.passedOn seg =
      if r.finAbsSeq ≠ 0 ∧ r.finAbsSeq ≤ a ∧ seg.lengthInSequenceSpace = 0 then none
      else if ¬ (a < r.oldAbsAckno + r.windowSize ∧
          r.oldAbsAckno < a + seg.lengthInSequenceSpace) then none
      else some a := by
  rw [passedOn, h, Option.filter_some]
  by_cases hfin : r.finAbsSeq ≠ 0 ∧ r.finAbsSeq ≤ a ∧ seg.lengthInSequenceSpace = 0
  · rw [if_pos hfin, decide_eq_true hfin, Bool.not_true, Bool.and_false]
    rfl
  · rw [if_neg hfin, decide_eq_false hfin, Bool.not_false, Bool.and_true]
    by_cases hwin : r.InWindow a seg
    · rw [if_neg (not_not.mpr ⟨hwin.1, hwin.2⟩), decide_eq_true hwin]
      rfl
    · rw [if_pos fun hc => hwin ⟨hc.1, hc.2⟩, decide_eq_false hwin]
      rfl

/-- **What a segment does**: it may teach the initial sequence number, and it is accepted if it is
passed on. -/
theorem segmentReceived_eq (r : TCPReceiver) (seg : TCPSegment) :
    (r.segmentReceived seg).1 =
      match r.passedOn seg with
      | none => { r with isn := r.learnIsn seg }
      | some absSeq =>
        { r with isn := r.learnIsn seg }.accept absSeq
          (decide (absSeq + seg.lengthInSequenceSpace ≤ r.oldAbsAckno + r.windowSize)) seg := by
  unfold segmentReceived
  cases hisn : r.learnIsn seg with
  | none =>
    rw [passedOn_eq_none hisn]
    change r = { r with isn := none }
    rw [← isn_eq_none_of_learnIsn hisn]
  | some isn =>
    rw [passedOn_of_absSeq (absSeq_of_learnIsn hisn)]
    -- the tests of the source read nothing that the new initial sequence number changes
    have hout : ({ r with isn := some isn } : TCPReceiver).streamOut.bytesWritten =
      r.streamOut.bytesWritten := rfl
    have hwindow : ({ r with isn := some isn } : TCPReceiver).windowSize = r.windowSize := rfl
    simp only [hout, hwindow]
    split_ifs <;> rfl

theorem passedOn_eq_some_iff :
    r.passedOn seg = some a ↔ r.absSeq seg = some a ∧ r.InWindow a seg ∧
      ¬ (r.finAbsSeq ≠ 0 ∧ r.finAbsSeq ≤ a ∧ seg.lengthInSequenceSpace = 0) := by
  rw [passedOn, Option.filter_eq_some_iff, Bool.and_eq_true, decide_eq_true_iff,
    Bool.not_eq_true', decide_eq_false_iff_not]

/-! ## The placements of a segment -/

/-- Which payload byte a segment stores at which stream index. -/
def placements (r : TCPReceiver) (seg : TCPSegment) : List (ℕ × ℕ) :=
  match r.passedOn seg with
  | none => []
  | some absSeq => r.reassembler.placements seg.payload (absSeq - 1)

/-- **A segment makes these placements** in the ring and no others, before what is contiguous leaves
the ring. -/
theorem segmentReceived_reassembler (r : TCPReceiver) (seg : TCPSegment) :
    (r.segmentReceived seg).1.reassembler =
      match r.passedOn seg with
      | none => r.reassembler
      | some absSeq =>
        (((r.placements seg).foldl (StreamReassembler.placeByte seg.payload)
          r.reassembler).submit).finish (absSeq - 1 + seg.payload.length)
          (absSeq - 1 + seg.payload.length + 2 == (r.segmentReceived seg).1.finAbsSeq) := by
  rw [segmentReceived_eq, placements]
  cases hpassed : r.passedOn seg with
  | none => rfl
  | some absSeq =>
    dsimp only
    rw [← StreamReassembler.store_eq_foldl_placeByte, accept_reassembler]
    rfl

theorem mem_placements {k i : ℕ} :
    (k, i) ∈ r.placements seg ↔ ∃ absSeq, r.absSeq seg = some absSeq ∧ r.InWindow absSeq seg ∧
      i = absSeq - 1 + k ∧ k < seg.payload.length ∧ r.reassembler.rpos ≤ i ∧
        i < r.reassembler.rpos + r.reassembler.capacity := by
  unfold placements
  constructor
  · intro hmem
    cases hpassed : r.passedOn seg with
    | none => simp [hpassed] at hmem
    | some absSeq =>
      rw [hpassed] at hmem
      obtain ⟨habs, hwin, -⟩ := passedOn_eq_some_iff.mp hpassed
      exact ⟨absSeq, habs, hwin, StreamReassembler.mem_placements.mp hmem⟩
  · rintro ⟨absSeq, habs, hwin, hmem⟩
    -- a segment with a payload byte is not the empty segment past the FIN
    have hlen : seg.lengthInSequenceSpace ≠ 0 := by
      unfold TCPSegment.lengthInSequenceSpace
      omega
    rw [passedOn_eq_some_iff.mpr ⟨habs, hwin, fun hfin => hlen hfin.2.2⟩]
    exact StreamReassembler.mem_placements.mpr hmem

theorem oldAbsAckno_eq (h : r.isn.isSome = true) : r.oldAbsAckno = r.absAckno :=
  if_pos h

end TCPReceiver

/-! ## Runs -/

/-- A call on a receiver: the arrival of anything, or a read of the inbound stream. -/
inductive ReceiverCall where
  | segmentReceived (seg : TCPSegment)
  | read (len : ℕ)
  deriving DecidableEq, Repr

namespace TCPReceiver

/-- One call. -/
def step (r : TCPReceiver) : ReceiverCall → TCPReceiver
  | .segmentReceived seg => (r.segmentReceived seg).1
  | .read len => r.mapStreamOut fun s => (s.read len).1

variable {r : TCPReceiver}

/-- The ring stays well formed, whatever arrives. -/
theorem step_wellFormed (r : TCPReceiver) (op : ReceiverCall) (h : r.reassembler.WellFormed) :
    (r.step op).reassembler.WellFormed := by
  cases op with
  | read len =>
    exact ⟨h.capacity_pos, h.output.popOutput len, h.output_capacity, h.buffer_length,
      h.bitMap_length, h.rpos_eq⟩
  | segmentReceived seg =>
    rw [step, segmentReceived_eq]
    cases r.passedOn seg with
    | none => exact h
    | some absSeq => exact h.pushSubstring _ _ _

/-! ## The end of the advertised window -/

/-- Once the SYN has arrived, every byte that a segment stores has an absolute number before the end
of the advertised window. -/
def StoresInWindow (r : TCPReceiver) : ReceiverCall → Prop
  | .segmentReceived seg =>
    r.isn.isSome = true → ∀ absSeq ∈ r.absSeq seg, ∀ p ∈ r.placements seg,
      absSeq + seg.payloadOffset + p.1 < r.absAckno + r.windowSize
  | .read _ => True

instance (r : TCPReceiver) : ∀ op, Decidable (r.StoresInWindow op)
  | .segmentReceived seg =>
    inferInstanceAs (Decidable (_ → ∀ absSeq ∈ r.absSeq seg, ∀ p ∈ r.placements seg, _))
  | .read _ => isTrue trivial

/-- A segment that overlaps the advertised window has its payload end there, or holds only bytes
that are written already, or the window of the ring does not reach further than the advertised
one. -/
def EndsInWindow (r : TCPReceiver) : ReceiverCall → Prop
  | .segmentReceived seg =>
    r.isn.isSome = true → ∀ absSeq ∈ r.absSeq seg, r.InWindow absSeq seg →
      absSeq + seg.payloadOffset + seg.payload.length ≤ r.absAckno + r.windowSize ∨
        absSeq - 1 + seg.payload.length ≤ r.streamOut.bytesWritten ∨
        r.streamOut.bytesWritten + r.reassembler.capacity + absSeq + seg.payloadOffset ≤
          r.absAckno + r.windowSize + (absSeq - 1)
  | .read _ => True

instance (r : TCPReceiver) : ∀ op, Decidable (r.EndsInWindow op)
  | .segmentReceived seg =>
    inferInstanceAs (Decidable (_ → ∀ absSeq ∈ r.absSeq seg, _ → _ ∨ _ ∨ _))
  | .read _ => isTrue trivial

theorem storesInWindow_iff (h : r.reassembler.WellFormed) (op : ReceiverCall) :
    r.StoresInWindow op ↔ r.EndsInWindow op := by
  cases op with
  | read len => exact Iff.rfl
  | segmentReceived seg =>
    refine forall_congr' fun hisn => forall₂_congr fun absSeq habs => ?_
    have hrpos : r.reassembler.rpos = r.streamOut.bytesWritten := h.rpos_eq
    have hcap := h.capacity_pos
    constructor
    · intro hstores hwin
      have hin : absSeq < r.absAckno + r.windowSize := oldAbsAckno_eq hisn ▸ hwin.1
      have hoffset := seg.payloadOffset_le
      by_contra hcond
      -- the first payload byte that is neither written nor before the end of the window
      obtain ⟨k, hk⟩ : ∃ k, k = max (r.streamOut.bytesWritten - (absSeq - 1))
          (r.absAckno + r.windowSize - (absSeq + seg.payloadOffset)) := ⟨_, rfl⟩
      have hmem : (k, absSeq - 1 + k) ∈ r.placements seg :=
        mem_placements.mpr ⟨absSeq, habs, hwin, rfl, by omega, by omega, by omega⟩
      have := hstores _ hmem
      omega
    · rintro hends ⟨k, i⟩ hmem
      obtain ⟨a, ha, hwin, rfl, hk, hlo, hhi⟩ := mem_placements.mp hmem
      obtain rfl : a = absSeq := Option.some.inj (ha.symm.trans habs)
      have := hends hwin
      dsimp only
      omega

/-! ## The stream index of a byte -/

/-- Every byte that a segment stores goes to the stream index of its own absolute number, which is
not that of the SYN. -/
def PlacesAtIndex (r : TCPReceiver) : ReceiverCall → Prop
  | .segmentReceived seg =>
    ∀ absSeq ∈ r.absSeq seg, ∀ p ∈ r.placements seg,
      0 < absSeq + seg.payloadOffset + p.1 ∧ p.2 = absSeq + seg.payloadOffset + p.1 - 1
  | .read _ => True

instance (r : TCPReceiver) : ∀ op, Decidable (r.PlacesAtIndex op)
  | .segmentReceived seg =>
    inferInstanceAs (Decidable (∀ absSeq ∈ r.absSeq seg, ∀ p ∈ r.placements seg, _ ∧ _))
  | .read _ => isTrue trivial

/-- A segment that overlaps the advertised window has SYN exactly if it starts at the position of
the SYN, or none of its bytes falls into the window of the ring. -/
def SynInPlace (r : TCPReceiver) : ReceiverCall → Prop
  | .segmentReceived seg =>
    ∀ absSeq ∈ r.absSeq seg, r.InWindow absSeq seg →
      (seg.header.syn = true ↔ absSeq = 0) ∨ seg.payload = [] ∨
        absSeq - 1 + seg.payload.length ≤ r.streamOut.bytesWritten ∨
        r.streamOut.bytesWritten + r.reassembler.capacity ≤ absSeq - 1
  | .read _ => True

instance (r : TCPReceiver) : ∀ op, Decidable (r.SynInPlace op)
  | .segmentReceived seg =>
    inferInstanceAs (Decidable (∀ absSeq ∈ r.absSeq seg, _ → _ ∨ _ ∨ _ ∨ _))
  | .read _ => isTrue trivial

theorem placesAtIndex_iff (h : r.reassembler.WellFormed) (op : ReceiverCall) :
    r.PlacesAtIndex op ↔ r.SynInPlace op := by
  cases op with
  | read len => exact Iff.rfl
  | segmentReceived seg =>
    refine forall₂_congr fun absSeq habs => ?_
    have hrpos : r.reassembler.rpos = r.streamOut.bytesWritten := h.rpos_eq
    have hcap := h.capacity_pos
    constructor
    · intro hplaces hwin
      rw [← TCPSegment.payloadOffset_eq_one_iff, ← List.length_eq_zero_iff]
      have hoffset := seg.payloadOffset_le
      by_contra hcond
      -- the first payload byte that is not written already
      obtain ⟨k, hk⟩ : ∃ k, k = r.streamOut.bytesWritten - (absSeq - 1) := ⟨_, rfl⟩
      have hmem : (k, absSeq - 1 + k) ∈ r.placements seg :=
        mem_placements.mpr ⟨absSeq, habs, hwin, rfl, by omega, by omega, by omega⟩
      have := hplaces _ hmem
      omega
    · rintro hsyn ⟨k, i⟩ hmem
      obtain ⟨a, ha, hwin, rfl, hk, hlo, hhi⟩ := mem_placements.mp hmem
      obtain rfl : a = absSeq := Option.some.inj (ha.symm.trans habs)
      have hcases := hsyn hwin
      have hoffset := seg.payloadOffset_le
      rw [← TCPSegment.payloadOffset_eq_one_iff, ← List.length_eq_zero_iff] at hcases
      dsimp only
      omega

end TCPReceiver

/-- **When bytes beyond the advertised window are refused.** On every run of arbitrary segments and
reads, each segment stores only bytes before the end of the window that was advertised just before
it, exactly if no segment overlaps the window and its end with a byte that the ring still has a cell
for. -/
theorem window_edge_respected_iff {capacity : ℕ} (hcap : 1 ≤ capacity)
    (ops : List ReceiverCall) :
    Run.Always TCPReceiver.step TCPReceiver.StoresInWindow (TCPReceiver.new capacity) ops ↔
      Run.Always TCPReceiver.step TCPReceiver.EndsInWindow (TCPReceiver.new capacity) ops :=
  Run.always_congr TCPReceiver.step_wellFormed (fun _ op h => TCPReceiver.storesInWindow_iff h op)
    (StreamReassembler.wellFormed_new hcap)

/-- The theorem on a run that reads everything before a segment reaches beyond the window. -/
theorem window_edge_respected_after_read :
    let ops : List ReceiverCall :=
      [.segmentReceived { header := { syn := true } },
        .segmentReceived { header := { seqno := ⟨1⟩ }, payload := [1, 2] }, .read 2,
        .segmentReceived { header := { seqno := ⟨3⟩ }, payload := [3, 4, 5, 6, 7] }]
    Run.Always TCPReceiver.step TCPReceiver.StoresInWindow (TCPReceiver.new 4) ops := by
  intro ops
  refine (window_edge_respected_iff (by decide) ops).mpr ⟨?_, ?_, trivial, ?_, trivial⟩
  · decide
  · decide
  · decide

/-- **Two bytes beyond the window are stored.** With two of four bytes unread, the window ends at
the absolute number `5`; of a segment with the bytes `3` to `6` the last two are put into the
ring. -/
theorem window_edge_overrun :
    let r := Run.exec TCPReceiver.step (TCPReceiver.new 4)
      [.segmentReceived { header := { syn := true } },
        .segmentReceived { header := { seqno := ⟨1⟩ }, payload := [1, 2] }]
    let seg : TCPSegment := { header := { seqno := ⟨3⟩ }, payload := [3, 4, 5, 6] }
    r.absAckno + r.windowSize = 5 ∧ r.absSeq seg = some 3 ∧
      r.placements seg = [(0, 2), (1, 3), (2, 4), (3, 5)] ∧
      (r.step (.segmentReceived seg)).unassembledBytes = 2 ∧
      ¬ r.StoresInWindow (.segmentReceived seg) := by
  decide

/-- **When every byte lands at its own index.** On every run of arbitrary segments and reads, each
stored byte goes to the stream index of its absolute number, and none to that of the SYN, exactly if
each segment that overlaps the window carries SYN if and only if it starts at the position of the
SYN, or has no byte for the ring. -/
theorem bytes_at_own_index_iff {capacity : ℕ} (hcap : 1 ≤ capacity) (ops : List ReceiverCall) :
    Run.Always TCPReceiver.step TCPReceiver.PlacesAtIndex (TCPReceiver.new capacity) ops ↔
      Run.Always TCPReceiver.step TCPReceiver.SynInPlace (TCPReceiver.new capacity) ops :=
  Run.always_congr TCPReceiver.step_wellFormed (fun _ op h => TCPReceiver.placesAtIndex_iff h op)
    (StreamReassembler.wellFormed_new hcap)

/-- The theorem on a SYN with payload and a segment after it. -/
theorem bytes_at_own_index_syn_payload :
    let ops : List ReceiverCall :=
      [.segmentReceived { header := { syn := true }, payload := [1, 2] },
        .segmentReceived { header := { seqno := ⟨3⟩ }, payload := [3] }]
    Run.Always TCPReceiver.step TCPReceiver.PlacesAtIndex (TCPReceiver.new 4) ops := by
  intro ops
  refine (bytes_at_own_index_iff (by decide) ops).mpr ⟨?_, ?_, trivial⟩
  · decide
  · decide

/-- **A byte at the position of the SYN is placed in the stream.** After the SYN, a segment without
SYN that starts at the same sequence number has its byte with the absolute number `0` written as the
first byte of the stream, and its byte with the absolute number `1`, which belongs there, as the
second. -/
theorem byte_at_syn_position_placed :
    let r := Run.exec TCPReceiver.step (TCPReceiver.new 4)
      [.segmentReceived { header := { syn := true } }]
    let seg : TCPSegment := { payload := [7, 8] }
    r.absSeq seg = some 0 ∧ r.placements seg = [(0, 0), (1, 1)] ∧
      (r.step (.segmentReceived seg)).streamOut.buffer = [7, 8] ∧
      ¬ r.PlacesAtIndex (.segmentReceived seg) := by
  decide

end Sponge
