import Mathlib.Tactic
import Sponge.Foundations.Run
import Sponge.TCPSender.Emission

/-!
# Filling the window

The loop of `fill_window` has three limits for the payload of a segment, a test of its own for the
FIN, and two ways out: no free space is left, or the stream is exhausted. `FillEnds s s'` is the
loop without a bound on its rounds, as the source writes it. It always ends, and by induction on its
rounds: no segment is longer than the free space that is left for it, each takes as many bytes as
the three limits allow, and the loop stops only when there is nothing more to do.

## Main definitions

* `TCPSender.FillEnds s s'`: the loop, started in `s`, ends in `s'`
* `FillsUp bytes free segs`: the payloads of `segs` are as long as `bytes` left in the stream and
  `free` numbers left in the window allow

## Main results

* `TCPSender.fillEnds_fillLoop`: the loop ends, within as many rounds as there is free space
* `TCPSender.FillEnds.fillsUp`: what it has done when it ends
* `fillWindow_fills`: `fill_window` fills the window and stops
-/

namespace Sponge

/-- Each of the segments takes as many bytes as are left in the stream, in the window and in a
segment, and is no longer than what is left in the window. -/
def FillsUp : ℕ → ℕ → List TCPSegment → Prop
  | _, _, [] => True
  | bytes, free, seg :: segs =>
    seg.payload.length = min bytes (min free TCPConfig.maxPayloadSize) ∧
      seg.lengthInSequenceSpace ≤ free ∧
      FillsUp (bytes - seg.payload.length) (free - seg.lengthInSequenceSpace) segs

namespace TCPSender

variable {s s' : TCPSender}

/-! ## The loop without a bound -/

/-- The loop of `fill_window`, started in `s`, ends in `s'`. -/
inductive FillEnds : TCPSender → TCPSender → Prop
  /-- no free space is left -/
  | full {s : TCPSender} (hfree : s.receiverFreeSpace = 0) : FillEnds s s
  /-- the round exhausts the stream -/
  | exhausted {s : TCPSender} (hfree : s.receiverFreeSpace ≠ 0)
      (hempty : s.fillRound.stream.bufferEmpty = true) : FillEnds s s.fillRound
  | round {s s' : TCPSender} (hfree : s.receiverFreeSpace ≠ 0)
      (hmore : s.fillRound.stream.bufferEmpty = false) (hends : FillEnds s.fillRound s') :
      FillEnds s s'

theorem fillRound_stream (s : TCPSender) : s.fillRound.stream = s.stream.popOutput s.payloadSize :=
  rfl

theorem fillRound_finSent (s : TCPSender) :
    s.fillRound.finSent = (s.finSent ||
      (s.fillRound.stream.eof && decide (s.payloadSize < s.receiverFreeSpace.toNat))) :=
  rfl

theorem payloadSize_le (s : TCPSender) : s.payloadSize ≤ s.receiverFreeSpace.toNat := by
  unfold payloadSize
  omega

/-- **The loop ends**, within as many rounds as there is free space. -/
theorem fillEnds_fillLoop (hwf : s.stream.WellFormed) (hsyn : s.synSent = true)
    (hwork : s.HasWork) {n : ℕ} (hn : s.receiverFreeSpace.toNat ≤ n) :
    FillEnds s (s.fillLoop n) := by
  -- induction on the rounds left; each round with work uses up free space
  induction n generalizing s with
  | zero =>
    refine FillEnds.full (not_not.mp fun hne => ?_)
    have hpos := ne_zero_iff_toNat_pos.mp hne
    omega
  | succ n ih =>
    unfold fillLoop
    by_cases hfree : s.receiverFreeSpace = 0
    · rw [if_neg (by simpa using hfree)]
      exact FillEnds.full hfree
    · rw [if_pos hfree]
      dsimp only
      by_cases hempty : s.fillRound.stream.bufferEmpty = true
      · rw [if_pos hempty]
        exact FillEnds.exhausted hfree hempty
      · rw [if_neg hempty]
        have hround := emits_fillRound hwf hsyn hfree hwork
        have hpos := roundSegment_length_pos hwf hfree hwork
        have hleft := fillRound_freeSpace hwf hsyn hfree hwork
        have hsize : 0 < s.fillRound.stream.size := by
          simpa [ByteStream.bufferEmpty, Nat.pos_iff_ne_zero] using hempty
        exact FillEnds.round hfree (by simpa using hempty)
          (ih hround.wellFormed (hround.synSent_eq.trans hsyn) (Or.inl hsize) (by omega))

/-! ## What the loop has done -/

/-- A round takes what the three limits allow, and leaves the rest. -/
theorem fillsUp_round (hwf : s.stream.WellFormed) (hsyn : s.synSent = true)
    (hfree : s.receiverFreeSpace ≠ 0) (hwork : s.HasWork) {new : List TCPSegment}
    (hrest : FillsUp s.fillRound.stream.bufferSize s.fillRound.receiverFreeSpace.toNat new) :
    FillsUp s.stream.bufferSize s.receiverFreeSpace.toNat (s.roundSegment :: new) := by
  have hlen : s.roundSegment.payload.length = s.payloadSize := length_peekOutput_payloadSize hwf
  refine ⟨hlen, roundSegment_length_le hwf, ?_⟩
  have hbytes : s.stream.bufferSize - s.payloadSize = s.fillRound.stream.bufferSize := by
    rw [fillRound_stream, ByteStream.bufferSize, ByteStream.bufferSize, ByteStream.popOutput_size]
    omega
  rw [hlen, hbytes, ← fillRound_freeSpace hwf hsyn hfree hwork]
  exact hrest

/-- A round that exhausts the stream without the FIN either uses up the free space, or the input has
not ended. -/
theorem fillRound_complete (hwf : s.stream.WellFormed) (hsyn : s.synSent = true)
    (hfin : s.finSent = false) (hfree : s.receiverFreeSpace ≠ 0) (hwork : s.HasWork) :
    s.fillRound.receiverFreeSpace = 0 ∨
      (s.fillRound.finSent = true ↔ s.fillRound.stream.eof = true) := by
  by_cases hroom : s.payloadSize < s.receiverFreeSpace.toNat
  · -- there is room for the FIN
    right
    rw [fillRound_finSent, hfin, decide_eq_true hroom, Bool.false_or, Bool.and_true]
  · left
    have hle := s.payloadSize_le
    have hlen := roundSegment_length hwf
    rw [decide_eq_false hroom, Bool.and_false] at hlen
    have hleft := fillRound_freeSpace hwf hsyn hfree hwork
    by_contra hne
    have hpos := ne_zero_iff_toNat_pos.mp hne
    simp only [Bool.false_eq_true, if_false] at hlen
    omega

/-- Before a round that leaves bytes in the stream, FIN is not sent. -/
theorem finSent_of_more (hfin : s.finSent = false)
    (hmore : s.fillRound.stream.bufferEmpty = false) : s.fillRound.finSent = false := by
  rw [fillRound_finSent, hfin, ByteStream.eof, hmore, Bool.and_false, Bool.false_and,
    Bool.or_false]

/-- **What the loop has done when it ends**: the segments fill the window up, and either no free
space is left, or the stream is exhausted and FIN is sent exactly if the stream has ended. -/
theorem FillEnds.fillsUp (h : FillEnds s s') (hwf : s.stream.WellFormed) (hsyn : s.synSent = true)
    (hfin : s.finSent = false) (hwork : s.HasWork) :
    ∃ new, s'.segmentsOut = s.segmentsOut ++ new ∧
      s'.segmentsOutstanding = s.segmentsOutstanding ++ new ∧
      FillsUp s.stream.bufferSize s.receiverFreeSpace.toNat new ∧
      s'.receiverFreeSpace.toNat + seqLength new = s.receiverFreeSpace.toNat ∧
      (s'.receiverFreeSpace = 0 ∨
        (s'.stream.bufferEmpty = true ∧ (s'.finSent = true ↔ s'.stream.eof = true))) := by
  -- induction on the rounds
  induction h with
  | full hfree =>
    exact ⟨[], (List.append_nil _).symm, (List.append_nil _).symm, trivial, rfl, Or.inl hfree⟩
  | @exhausted s hfree hempty =>
    have hround := emits_fillRound hwf hsyn hfree hwork
    have hleft := fillRound_freeSpace hwf hsyn hfree hwork
    have hle := roundSegment_length_le hwf
    refine ⟨[s.roundSegment], hround.segmentsOut_eq, hround.outstanding_eq,
      fillsUp_round hwf hsyn hfree hwork trivial, ?_, ?_⟩
    · rw [seqLength_cons, seqLength_nil]
      omega
    · exact (fillRound_complete hwf hsyn hfin hfree hwork).imp_right fun heof => ⟨hempty, heof⟩
  | @round s s' hfree hmore hends ih =>
    have hround := emits_fillRound hwf hsyn hfree hwork
    have hleft := fillRound_freeSpace hwf hsyn hfree hwork
    have hle := roundSegment_length_le hwf
    have hsize : 0 < s.fillRound.stream.size := by
      simpa [ByteStream.bufferEmpty, Nat.pos_iff_ne_zero] using hmore
    obtain ⟨new, hout, houtstanding, hfills, hused, hdone⟩ := ih hround.wellFormed
      (hround.synSent_eq.trans hsyn) (finSent_of_more hfin hmore) (Or.inl hsize)
    refine ⟨s.roundSegment :: new, ?_, ?_, fillsUp_round hwf hsyn hfree hwork hfills, ?_, hdone⟩
    · rw [hout, hround.segmentsOut_eq, List.append_assoc]
      rfl
    · rw [houtstanding, hround.outstanding_eq, List.append_assoc]
      rfl
    · rw [seqLength_cons]
      omega

end TCPSender

/-- **`fill_window` fills the window and stops.** With the SYN acknowledged, the FIN not sent and an
open window, it returns at once because the stream is empty but has not ended, or its loop ends. The
new segments take as many bytes as the stream, the free space and a segment have left, and none is
longer than the free space left for it. In the end no free space is left, or the stream is empty and
FIN has been sent exactly if the stream has ended. -/
theorem fillWindow_fills (s : TCPSender) (hwf : s.stream.WellFormed) (hsyn : s.synSent = true)
    (hacked : s.synOutstanding = false) (hfin : s.finSent = false)
    (hwindow : s.receiverWindowSize ≠ 0) :
    ((s.stream.bufferSize = 0 ∧ s.stream.eof = false ∧ s.fillWindow = s) ∨
        TCPSender.FillEnds s s.fillWindow) ∧
      ∃ new, s.fillWindow.segmentsOut = s.segmentsOut ++ new ∧
        s.fillWindow.segmentsOutstanding = s.segmentsOutstanding ++ new ∧
        FillsUp s.stream.bufferSize s.receiverFreeSpace.toNat new ∧
        s.fillWindow.receiverFreeSpace.toNat + seqLength new = s.receiverFreeSpace.toNat ∧
        (s.fillWindow.receiverFreeSpace = 0 ∨
          (s.fillWindow.stream.bufferEmpty = true ∧
            (s.fillWindow.finSent = true ↔ s.fillWindow.stream.eof = true))) := by
  by_cases hwait : (s.stream.bufferSize == 0 && !s.stream.eof) = true
  · -- nothing to send now, but more may come
    have hself : s.fillWindow = s := by simp [TCPSender.fillWindow, hsyn, hacked, hwait]
    simp only [Bool.and_eq_true, beq_iff_eq, Bool.not_eq_true'] at hwait
    obtain ⟨hsize, heof⟩ := hwait
    refine ⟨Or.inl ⟨hsize, heof, hself⟩, [], ?_⟩
    rw [hself]
    refine ⟨(List.append_nil _).symm, (List.append_nil _).symm, trivial, rfl, Or.inr ⟨?_, ?_⟩⟩
    · simpa [ByteStream.bufferEmpty, ByteStream.bufferSize] using hsize
    · rw [hfin, heof]
  · have hloop : s.fillWindow = s.fillLoop s.receiverFreeSpace.toNat := by
      simp [TCPSender.fillWindow, hsyn, hacked, hwait, hfin, hwindow]
    have hwork : s.HasWork := by
      by_cases hsize : s.stream.size = 0
      · exact Or.inr (by simpa [ByteStream.bufferSize, hsize] using hwait)
      · exact Or.inl (Nat.pos_of_ne_zero hsize)
    have hends : TCPSender.FillEnds s s.fillWindow := by
      rw [hloop]
      exact TCPSender.fillEnds_fillLoop hwf hsyn hwork le_rfl
    exact ⟨Or.inr hends, hends.fillsUp hwf hsyn hfin hwork⟩

/-- Three bytes at the end of the stream and room for four numbers: one segment with FIN uses up the
window. -/
theorem fillWindow_fills_last :
    let s := Run.exec TCPSender.step (TCPSender.new 8 1000 ⟨0⟩)
      [.fillWindow, .ackReceived {} ⟨1⟩ 4, .write [1, 2, 3], .endInput]
    s.fillWindow.receiverFreeSpace = 0 ∨
      (s.fillWindow.stream.bufferEmpty = true ∧
        (s.fillWindow.finSent = true ↔ s.fillWindow.stream.eof = true)) := by
  intro s
  obtain ⟨-, new, -, -, -, -, hdone⟩ := fillWindow_fills s ⟨by decide, by decide, by decide⟩
    (by decide) (by decide) (by decide) (by decide)
  exact hdone

end Sponge
