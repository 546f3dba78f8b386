import Mathlib.Tactic
import Sponge.Foundations.Run
import Sponge.TCPReceiver.Placement

/-!
# The end of the inbound stream under an arbitrary peer

The end of the inbound stream is kept in three places, and an arbitrary peer can make them disagree:
every FIN in the window overwrites `fin_abs_seq`, the reassembler overwrites `eof_index` and keeps
the ended flag, and the byte stream does not refuse bytes after its end. `Advances` is what a
receiver should guarantee between any two states of a run: the acknowledgment number does not fall,
and an ended stream does not change. It is characterised exactly, segment by segment.

## Main definitions

* `TCPReceiver.Advances`: no acknowledgment is taken back, and the end is final
* `TCPReceiver.NextAvailable`: a segment makes the next byte of the stream deliverable
* `TCPReceiver.EndSettled`: a segment does not contradict the recorded end

## Main results

* `StreamReassembler.WellFormed.delivered_eq_nil_iff`: when a push delivers nothing
* `inbound_stream_final_iff`: the guarantee on whole runs
* `inbound_stream_not_final`: an acknowledgment taken back, and bytes after the end
-/

namespace Sponge

/-- A push delivers nothing if the output is full or the next byte neither waits nor arrives. -/
theorem StreamReassembler.WellFormed.delivered_eq_nil_iff {r : StreamReassembler}
    (h : r.WellFormed) {data : List UInt8} {index : ℕ} :
    r.delivered data index = [] ↔
      ¬ (0 < r.output.remainingCapacity ∧ (r.stored r.output.bytesWritten = true ∨
        (index ≤ r.output.bytesWritten ∧ r.output.bytesWritten < index + data.length))) := by
  have hcap := h.capacity_pos
  have hnone : r.inserted data index r.rpos = none ↔
      ¬ (r.stored r.output.bytesWritten = true ∨
        (index ≤ r.output.bytesWritten ∧ r.output.bytesWritten < index + data.length)) := by
    rw [StreamReassembler.inserted, Reassembly.insert, h.rpos_eq, ByteStream.bytesWritten]
    split_ifs with hin
    · have hlt : r.output.nwritten - index < data.length := by omega
      rw [List.getElem?_eq_getElem hlt]
      exact iff_of_false (by simp) (not_not.mpr (Or.inr ⟨by omega, by omega⟩))
    · rw [StreamReassembler.pending, StreamReassembler.stored, h.rpos_eq,
        or_iff_left (by omega)]
      split_ifs with hbit
      · exact iff_of_false (by simp) (not_not.mpr hbit.2.2)
      · exact iff_of_true rfl fun hc => hbit ⟨le_rfl, by omega, hc⟩
  rw [StreamReassembler.delivered, Reassembly.contiguous_eq_nil_iff, hnone, not_and_or,
    Nat.pos_iff_ne_zero, not_not]

namespace TCPReceiver

variable {r r' : TCPReceiver}

/-- **The receiver goes forward**: once defined, the acknowledgment number does not fall, and once
the inbound stream has ended, neither its bytes nor its end nor the acknowledgment number change. -/
structure Advances (r r' : TCPReceiver) : Prop where
  absAckno_le : r.ackno.isSome = true → r'.isn = r.isn ∧ r.absAckno ≤ r'.absAckno
  final : r.streamOut.inputEnded = true →
    r'.streamOut.bytesWritten = r.streamOut.bytesWritten ∧ r'.streamOut.inputEnded = true ∧
      r'.ackno = r.ackno

theorem Advances.refl (r : TCPReceiver) : Advances r r :=
  ⟨fun _ => ⟨rfl, le_rfl⟩, fun hended => ⟨rfl, hended, rfl⟩⟩

theorem Advances.trans {r r' r'' : TCPReceiver} (h : Advances r r') (h' : Advances r' r'') :
    Advances r r'' where
  absAckno_le := by
    intro hsome
    obtain ⟨hisn, hle⟩ := h.absAckno_le hsome
    rw [ackno_isSome_iff, ← hisn, ← ackno_isSome_iff] at hsome
    obtain ⟨hisn', hle'⟩ := h'.absAckno_le hsome
    exact ⟨hisn'.trans hisn, hle.trans hle'⟩
  final := by
    intro hended
    obtain ⟨hbytes, hended', hackno⟩ := h.final hended
    obtain ⟨hbytes', hended'', hackno'⟩ := h'.final hended'
    exact ⟨hbytes'.trans hbytes, hended'', hackno'.trans hackno⟩

/-- After a segment at `absSeq` the next byte of the stream can be written: there is room for it,
and it waits in the ring or arrives. -/
def NextAvailable (r : TCPReceiver) (absSeq : ℕ) (seg : TCPSegment) : Prop :=
  0 < r.windowSize ∧ (r.reassembler.stored r.streamOut.bytesWritten = true ∨
    (absSeq - 1 ≤ r.streamOut.bytesWritten ∧
      r.streamOut.bytesWritten < absSeq - 1 + seg.payload.length))

instance (r : TCPReceiver) (absSeq : ℕ) (seg : TCPSegment) :
    Decidable (r.NextAvailable absSeq seg) :=
  inferInstanceAs (Decidable (_ ∧ _))

/-- The segment does not contradict the recorded end: it brings no next byte after the end, and
its FIN, if it is recorded and no byte is written, does not replace the position of a FIN that is
acknowledged, nor get acknowledged itself after the end. -/
def EndSettled (r : TCPReceiver) : ReceiverCall → Prop
  | .segmentReceived seg =>
    r.isn.isSome = true → ∀ absSeq ∈ r.passedOn seg,
      (r.streamOut.inputEnded = true → ¬ r.NextAvailable absSeq seg) ∧
      (¬ r.NextAvailable absSeq seg → seg.header.fin = true →
        absSeq + seg.lengthInSequenceSpace ≤ r.absAckno + r.windowSize →
        r.finAbsSeq ≠ r.streamOut.bytesWritten + 2 ∧
          (r.streamOut.inputEnded = true →
            absSeq + seg.lengthInSequenceSpace ≠ r.streamOut.bytesWritten + 2))
  | .read _ => True

instance (r : TCPReceiver) : ∀ op, Decidable (r.EndSettled op)
  | .segmentReceived seg =>
    inferInstanceAs (Decidable (_ → ∀ absSeq ∈ r.passedOn seg, _ ∧ (_ → _ → _ → _ ∧ (_ → _))))
  | .read _ => isTrue trivial

theorem absAckno_eq (r : TCPReceiver) :
    r.absAckno = 1 + r.streamOut.bytesWritten +
      (if r.finAbsSeq = r.streamOut.bytesWritten + 2 then 1 else 0) := by
  unfold absAckno
  dsimp only
  split_ifs <;> omega

/-- What an accepted segment does to the end of the stream. -/
theorem accept_end (h : r.reassembler.WellFormed) (absSeq : ℕ) (allFill : Bool)
    (seg : TCPSegment) :
    (r.accept absSeq allFill seg).finAbsSeq =
        (if allFill = true ∧ seg.header.fin = true then absSeq + seg.lengthInSequenceSpace
          else r.finAbsSeq) ∧
      r.streamOut.bytesWritten ≤ (r.accept absSeq allFill seg).streamOut.bytesWritten ∧
      ((r.accept absSeq allFill seg).streamOut.bytesWritten = r.streamOut.bytesWritten ↔
        ¬ r.NextAvailable absSeq seg) ∧
      (r.streamOut.inputEnded = true →
        (r.accept absSeq allFill seg).streamOut.inputEnded = true) := by
  have hwritten : (r.accept absSeq allFill seg).streamOut.bytesWritten =
      r.streamOut.bytesWritten + (r.reassembler.delivered seg.payload (absSeq - 1)).length := by
    rw [streamOut, accept_reassembler]
    exact h.pushSubstring_output_nwritten _ _ _
  refine ⟨?_, by omega, ?_, ?_⟩
  · rw [accept]
    simp
  · rw [hwritten, Nat.add_eq_left, List.length_eq_zero_iff, h.delivered_eq_nil_iff]
    rfl
  · intro hended
    rw [accept]
    change (StreamReassembler.pushSubstring _ _ _ _).output.inputEnded = true
    rw [h.pushSubstring_output_inputEnded, Bool.or_eq_true]
    exact Or.inl hended

/-- The invariant of an arbitrary run: the ring is well formed, and the inbound stream does not end
before the SYN has arrived. -/
structure Started (r : TCPReceiver) : Prop where
  wellFormed : r.reassembler.WellFormed
  open_of_isn : r.isn = none → r.streamOut.inputEnded = false

theorem started_new {capacity : ℕ} (h : 1 ≤ capacity) : (new capacity).Started :=
  ⟨StreamReassembler.wellFormed_new h, fun _ => rfl⟩

theorem Started.step (h : r.Started) (op : ReceiverCall) : (r.step op).Started := by
  refine ⟨step_wellFormed r op h.wellFormed, fun hnone => ?_⟩
  cases op with
  | read len => exact h.open_of_isn hnone
  | segmentReceived seg =>
    -- without an initial sequence number the segment was dropped
    rw [TCPReceiver.step, segmentReceived_isn] at hnone
    have hisn := isn_eq_none_of_learnIsn hnone
    have habs : r.passedOn seg = none := by
      rw [passedOn, absSeq, hnone]
      rfl
    rw [TCPReceiver.step, segmentReceived_eq, habs]
    exact h.open_of_isn hisn

/-- Going forward in numbers, while the initial sequence number and the end flag stay. -/
theorem advances_iff_of_isn {i : WrappingInt32} (hisn : r.isn = some i) (hisn' : r'.isn = some i)
    (hended : r.streamOut.inputEnded = true → r'.streamOut.inputEnded = true) :
    Advances r r' ↔ r.absAckno ≤ r'.absAckno ∧ (r.streamOut.inputEnded = true →
      r'.streamOut.bytesWritten = r.streamOut.bytesWritten ∧
        r'.absAckno % 2 ^ 32 = r.absAckno % 2 ^ 32) := by
  have hackno : r'.ackno = r.ackno ↔ r'.absAckno % 2 ^ 32 = r.absAckno % 2 ^ 32 := by
    rw [ackno, ackno, hisn, hisn', Option.map_some, Option.map_some, Option.some_inj,
      wrap_eq_wrap_iff]
  have hsome : r.ackno.isSome = true := by
    rw [ackno_isSome_iff, hisn]
    rfl
  constructor
  · intro h
    exact ⟨(h.absAckno_le hsome).2, fun he => ⟨(h.final he).1, hackno.mp (h.final he).2.2⟩⟩
  · rintro ⟨hle, hfinal⟩
    exact ⟨fun _ => ⟨hisn'.trans hisn.symm, hle⟩,
      fun he => ⟨(hfinal he).1, hended he, hackno.mpr (hfinal he).2⟩⟩

/-- An accepted segment that ends after the acknowledged position. -/
theorem advances_accept_iff (h : r.reassembler.WellFormed) {i : WrappingInt32}
    (hisn : r.isn = some i) {absSeq : ℕ} {seg : TCPSegment}
    (hlo : r.absAckno < absSeq + seg.lengthInSequenceSpace) (allFill : Bool) :
    Advances r (r.accept absSeq allFill seg) ↔
      (r.streamOut.inputEnded = true → ¬ r.NextAvailable absSeq seg) ∧
      (¬ r.NextAvailable absSeq seg → seg.header.fin = true → allFill = true →
        r.finAbsSeq ≠ r.streamOut.bytesWritten + 2 ∧
          (r.streamOut.inputEnded = true →
            absSeq + seg.lengthInSequenceSpace ≠ r.streamOut.bytesWritten + 2)) := by
  have hisn' : (r.accept absSeq allFill seg).isn = some i := hisn
  obtain ⟨hfin, hle, hbytes, hended⟩ := accept_end h absSeq allFill seg
  rw [advances_iff_of_isn hisn hisn' hended, absAckno_eq (r.accept absSeq allFill seg), hfin]
  rw [absAckno_eq r] at hlo ⊢
  generalize (r.accept absSeq allFill seg).streamOut.bytesWritten = written' at *
  by_cases havail : r.NextAvailable absSeq seg
  · -- a byte is written, and the acknowledgment number does not fall
    have hlt : r.streamOut.bytesWritten < written' :=
      lt_of_le_of_ne hle fun heq => hbytes.mp heq.symm havail
    simp only [havail, not_true_eq_false, false_implies, and_true]
    constructor
    · rintro ⟨-, hfinal⟩ he
      exact hlt.ne' (hfinal he).1
    · intro hopen
      refine ⟨?_, fun he => (hopen he).elim⟩
      split_ifs <;> omega
  · -- no byte is written: only a recorded FIN makes a difference
    obtain rfl := hbytes.mpr havail
    simp only [havail, not_false_eq_true, true_implies, implies_true, true_and]
    by_cases hnew : allFill = true ∧ seg.header.fin = true
    · simp only [hnew, and_self, if_true, true_implies]
      by_cases hold : r.finAbsSeq = r.streamOut.bytesWritten + 2
      · -- the recorded FIN was acknowledged, and the new one lies beyond it
        rw [if_pos hold] at hlo ⊢
        rw [if_neg (by omega)]
        exact iff_of_false (by omega) fun hc => hc.1 hold
      · rw [if_neg hold]
        by_cases hnext : absSeq + seg.lengthInSequenceSpace = r.streamOut.bytesWritten + 2
        · rw [if_pos hnext]
          refine ⟨fun hc => ⟨hold, fun he => ?_⟩, fun hc => ⟨by omega, fun he => ?_⟩⟩
          · exact absurd (hc.2 he) (by omega)
          · exact absurd hnext (hc.2 he)
        · rw [if_neg hnext]
          exact iff_of_true ⟨le_rfl, fun _ => rfl⟩ ⟨hold, fun _ => hnext⟩
    · rw [if_neg hnew]
      exact iff_of_true ⟨le_rfl, fun _ => rfl⟩ fun hf hfill => (hnew ⟨hfill, hf⟩).elim

/-- **One segment**: it takes the receiver forward exactly if it does not contradict the end. -/
theorem Started.advances_iff (h : r.Started) (op : ReceiverCall) :
    Advances r (r.step op) ↔ r.EndSettled op := by
  cases op with
  | read len =>
    refine iff_of_true ⟨fun _ => ⟨rfl, ?_⟩, fun hended => ⟨rfl, hended, ?_⟩⟩ trivial
    · exact (mapStreamOut_absAckno rfl).ge
    · rfl
  | segmentReceived seg =>
    cases hisn : r.isn with
    | none =>
      -- without the SYN there is no acknowledgment number and no end
      refine iff_of_true ⟨fun hsome => ?_, fun hended => ?_⟩ fun hsome => ?_
      · simp [ackno, hisn] at hsome
      · simp [h.open_of_isn hisn] at hended
      · simp [hisn] at hsome
    | some i =>
      have hself : { r with isn := some i } = r := by rw [← hisn]
      have hknown : r.isn.isSome = true := by rw [hisn]; rfl
      simp only [TCPReceiver.step, segmentReceived_eq, learnIsn_of_isSome hisn, hself, EndSettled]
      cases hpassed : r.passedOn seg with
      | none => exact iff_of_true (Advances.refl r) (by simp)
      | some absSeq =>
        obtain ⟨-, hwin, -⟩ := passedOn_eq_some_iff.mp hpassed
        have hlo : r.absAckno < absSeq + seg.lengthInSequenceSpace :=
          oldAbsAckno_eq hknown ▸ hwin.2
        simp only [hknown, true_implies, Option.mem_some_iff, forall_eq', oldAbsAckno_eq hknown,
          advances_accept_iff h.wellFormed hisn hlo, decide_eq_true_iff]

end TCPReceiver

/-- **When the inbound stream is final.** On every run of arbitrary segments and reads, any two
states are related by `Advances` (no defined acknowledgment number falls, and an ended stream
changes neither its bytes nor its end nor the acknowledgment number) exactly if no segment
contradicts the end that is recorded when it arrives. -/
theorem inbound_stream_final_iff {capacity : ℕ} (hcap : 1 ≤ capacity) (ops : List ReceiverCall) :
    (∀ before later, before ++ later <+: ops →
      TCPReceiver.Advances (Run.exec TCPReceiver.step (TCPReceiver.new capacity) before)
        (Run.exec TCPReceiver.step (TCPReceiver.new capacity) (before ++ later))) ↔
      Run.Always TCPReceiver.step TCPReceiver.EndSettled (TCPReceiver.new capacity) ops := by
  rw [← Run.always_related_iff TCPReceiver.Advances.refl TCPReceiver.Advances.trans]
  exact Run.always_congr (fun _ op h => h.step op) (fun _ op h => h.advances_iff op)
    (TCPReceiver.started_new hcap)

/-- The theorem on a run in which the FIN arrives twice, with data once more. -/
theorem inbound_stream_final_repeated_fin :
    let ops : List ReceiverCall :=
      [.segmentReceived { header := { syn := true } },
        .segmentReceived { header := { seqno := ⟨1⟩, fin := true }, payload := [7] }, .read 1,
        .segmentReceived { header := { seqno := ⟨1⟩, fin := true }, payload := [7] }]
    ∀ before later, before ++ later <+: ops →
      TCPReceiver.Advances (Run.exec TCPReceiver.step (TCPReceiver.new 4) before)
        (Run.exec TCPReceiver.step (TCPReceiver.new 4) (before ++ later)) := by
  intro ops
  refine (inbound_stream_final_iff (by decide) ops).mpr ⟨?_, ?_, trivial, ?_, trivial⟩
  · decide
  · decide
  · decide

/-- **An end that is not final.** After SYN and FIN the stream has ended and the FIN is
acknowledged. A second FIN, after one byte beyond the first, takes the acknowledgment back; and the
missing byte before it is then written to the ended stream, together with the one beyond. -/
theorem inbound_stream_not_final :
    let r := Run.exec TCPReceiver.step (TCPReceiver.new 8)
      [.segmentReceived { header := { syn := true } },
        .segmentReceived { header := { seqno := ⟨1⟩, fin := true } }]
    let r' := r.step (.segmentReceived { header := { seqno := ⟨2⟩, fin := true }, payload := [7] })
    let r'' := r'.step (.segmentReceived { header := { seqno := ⟨1⟩ }, payload := [6] })
    (r.streamOut.inputEnded = true ∧ r.streamOut.bytesWritten = 0 ∧ r.absAckno = 2) ∧
      (r'.absAckno = 1 ∧ r'.ackno ≠ r.ackno) ∧
      (r''.streamOut.bytesWritten = 2 ∧ r''.streamOut.buffer = [6, 7]) := by
  decide

end Sponge
