import Mathlib.Tactic
import Sponge.TCPReceiver

/-!
# The receiver under any arrival order

A receiver that is handed segments of one stream `S` delivers a prefix of `S`, and acknowledges
exactly what it has delivered. `Tracks S isn` is the invariant: the reassembler works on `S`, and
`fin_abs_seq` is either unset or the position after the FIN of `S`. It ties the three places where
the end of the stream is kept: `fin_abs_seq`, the `eof_index` of the reassembler, and the ended flag
of the inbound stream.

## Main definitions

* `TCPReceiver.Tracks S isn r written`: the receiver works on the stream `S`
* `TCPReceiver.finFits`: the FIN of an arriving segment falls inside the window
* `ReceiverTrace`, `ReceiverTrace.step`: a receiver in use

## Main results

* `TCPReceiver.Tracks.absAckno_eq`: the acknowledgment number counts what is written, and the FIN
* `TCPReceiver.Tracks.segmentReceived`: one arriving segment of `S`
* `receiver_correct_any_order`: the whole run
-/

namespace Sponge

namespace TCPReceiver

/-- **The receiver works on the stream `S`**, whose initial sequence number is `isn`; `written` are
the bytes ever written to the inbound stream. -/
structure Tracks (S : List UInt8) (isn : WrappingInt32) (r : TCPReceiver) (written : List UInt8) :
    Prop where
  isn_eq : ∀ i, r.isn = some i → i = isn
  assembles : r.reassembler.Assembles S written (decide (r.finAbsSeq ≠ 0))
  finAbsSeq_eq : r.finAbsSeq ≠ 0 → r.finAbsSeq = S.length + 2

variable {S : List UInt8} {isn : WrappingInt32} {r : TCPReceiver} {written : List UInt8}
  {seg : TCPSegment} {a : ℕ}

theorem tracks_new (S : List UInt8) (isn : WrappingInt32) {capacity : ℕ} (h : 0 < capacity) :
    (new capacity).Tracks S isn [] where
  isn_eq := by simp [new]
  assembles := StreamReassembler.assembles_new S h
  finAbsSeq_eq := fun h => absurd rfl h

theorem Tracks.inputEnded_iff (h : r.Tracks S isn written) :
    r.streamOut.inputEnded = true ↔ r.finAbsSeq ≠ 0 ∧ r.streamOut.nwritten = S.length := by
  rw [streamOut, h.assembles.inputEnded_iff, decide_eq_true_iff]

/-- **The acknowledgment number** counts SYN, the bytes written, and FIN once the stream has
ended. -/
theorem Tracks.absAckno_eq (h : r.Tracks S isn written) :
    r.absAckno = 1 + r.streamOut.nwritten + (if r.streamOut.inputEnded then 1 else 0) := by
  have hended := h.inputEnded_iff
  unfold absAckno ByteStream.bytesWritten
  dsimp only
  by_cases hfin : r.finAbsSeq = 0
  · -- no FIN is recorded, and the stream is open
    have hfalse : r.streamOut.inputEnded = false := by simpa [hfin] using hended
    rw [if_neg (by omega), hfalse]
    rfl
  · -- with the FIN recorded, it counts once all bytes are written
    have hlen := h.finAbsSeq_eq hfin
    by_cases hn : r.streamOut.nwritten = S.length
    · rw [if_pos (by omega), hended.mpr ⟨hfin, hn⟩, if_pos rfl]
      omega
    · have hfalse : r.streamOut.inputEnded = false := by simpa [hn] using hended
      rw [if_neg (by omega), hfalse]
      rfl

/-- The window ends where the reader's progress allows. -/
theorem Tracks.absAckno_add_windowSize (h : r.Tracks S isn written) :
    r.absAckno + r.windowSize =
      1 + (if r.streamOut.inputEnded then 1 else 0) + r.streamOut.nread +
        r.reassembler.capacity := by
  have hwf := h.assembles.wellFormed
  have hle := hwf.output.size_le
  have hcount := hwf.output.nwritten_eq
  have hcap := hwf.output_capacity
  rw [h.absAckno_eq, windowSize, ByteStream.remainingCapacity]
  simp only [streamOut] at *
  omega

/-- The acknowledgment number in its 32-bit form, once the SYN has arrived. -/
theorem Tracks.ackno_eq (h : r.Tracks S isn written) (hsome : r.isn.isSome = true) :
    r.ackno =
      some (wrap (1 + r.streamOut.nwritten + (if r.streamOut.inputEnded then 1 else 0)) isn) := by
  obtain ⟨i, hi⟩ := Option.isSome_iff_exists.mp hsome
  rw [ackno, hi, h.isn_eq i hi, h.absAckno_eq]
  rfl

/-- The window is the capacity less what is unread. -/
theorem Tracks.windowSize_eq (h : r.Tracks S isn written) :
    r.windowSize = r.reassembler.capacity - (r.streamOut.nwritten - r.streamOut.nread) := by
  have hwf := h.assembles.wellFormed
  have hcount : r.streamOut.nwritten = r.streamOut.nread + r.streamOut.size :=
    hwf.output.nwritten_eq
  rw [windowSize, ByteStream.remainingCapacity, hcount, Nat.add_sub_cancel_left,
    ← hwf.output_capacity]
  rfl

section Progress

variable {r' : TCPReceiver} {S' written' : List UInt8} (h : r.Tracks S isn written)
  (h' : r'.Tracks S' isn written') (hprogress : Progress r r')

include hprogress

theorem Progress.ended_le : (if r.streamOut.inputEnded then 1 else 0) ≤
    (if r'.streamOut.inputEnded then 1 else 0) := by
  cases he : r.streamOut.inputEnded with
  | false => exact Nat.zero_le _
  | true => rw [hprogress.inputEnded he]

include h h'

/-- **No acknowledgment is taken back**, also when the stream has grown meanwhile. -/
theorem Tracks.absAckno_le : r.absAckno ≤ r'.absAckno := by
  have hwritten := hprogress.nwritten_le
  have hended := hprogress.ended_le
  rw [h.absAckno_eq, h'.absAckno_eq]
  omega

/-- The end of the window does not move back. -/
theorem Tracks.windowEnd_le : r.absAckno + r.windowSize ≤ r'.absAckno + r'.windowSize := by
  have hread := hprogress.nread_le
  have hended := hprogress.ended_le
  rw [h.absAckno_add_windowSize, h'.absAckno_add_windowSize, hprogress.capacity_eq]
  omega

end Progress

/-- The initial sequence number that a segment of `S` teaches is that of `S`. -/
theorem Tracks.learnIsn_eq (h : r.Tracks S isn written) (hseg : SegmentOf S isn a seg)
    {i : WrappingInt32} (hi : r.learnIsn seg = some i) : i = isn := by
  unfold learnIsn at hi
  split_ifs at hi with hsyn
  · -- the SYN of `S` is at its start
    have ha : a = 0 := hseg.syn.mp (by simp_all)
    have hseqno := hseg.seqno
    rw [ha, wrap_zero] at hseqno
    rw [← hseqno]
    exact (Option.some.inj hi).symm
  · exact h.isn_eq i hi

/-- **An accepted segment of `S`**. -/
theorem Tracks.accept (h : r.Tracks S isn written) (hseg : SegmentOf S isn a seg)
    (allFill : Bool) :
    (r.accept a allFill seg).Tracks S isn
      (written ++ r.reassembler.delivered seg.payload (a - 1)) := by
  have hindex : (if a > 0 then a - 1 else 0) = a - 1 := by split_ifs <;> omega
  have hdata : ∀ k, k < seg.payload.length → seg.payload[k]? = S[a - 1 + k]? :=
    fun k hk => hseg.getElem? hk
  unfold TCPReceiver.accept
  dsimp only
  rw [hindex]
  -- the position after the FIN, and the end that the push announces, in the two cases of the FIN
  by_cases hnew : (allFill && seg.header.fin) = true
  · have hfin : seg.header.fin = true := by simp_all
    have hend := hseg.fin hfin
    rw [if_pos hnew, hseg.fin_end hfin]
    have heof : (a - 1 + seg.payload.length + 2 == S.length + 2) = true := by simp [hend]
    have hpush := h.assembles.pushSubstring hdata true fun _ => hend
    refine ⟨h.isn_eq, ?_, fun _ => rfl⟩
    rw [heof]
    simpa using hpush
  · -- without a new FIN the end is announced if the payload reaches the recorded one
    rw [if_neg hnew]
    have heof : (a - 1 + seg.payload.length + 2 == r.finAbsSeq) = true →
        a - 1 + seg.payload.length = S.length := by
      intro he
      have he' : a - 1 + seg.payload.length + 2 = r.finAbsSeq := by simpa using he
      have := h.finAbsSeq_eq (by omega)
      omega
    have hpush := h.assembles.pushSubstring hdata _ heof
    refine ⟨h.isn_eq, ?_, h.finAbsSeq_eq⟩
    have hflag : (decide (r.finAbsSeq ≠ 0) ||
        (a - 1 + seg.payload.length + 2 == r.finAbsSeq)) = decide (r.finAbsSeq ≠ 0) := by
      cases he : (a - 1 + seg.payload.length + 2 == r.finAbsSeq) with
      | false => simp
      | true =>
        have : a - 1 + seg.payload.length + 2 = r.finAbsSeq := by simpa using he
        simp [show r.finAbsSeq ≠ 0 by omega]
    rw [hflag] at hpush
    exact hpush

theorem Tracks.setIsn (h : r.Tracks S isn written) :
    { r with isn := some isn }.Tracks S isn written where
  isn_eq := fun _ hi => (Option.some.inj hi).symm
  assembles := h.assembles
  finAbsSeq_eq := h.finAbsSeq_eq

/-- The bytes that a segment writes to the inbound stream. -/
def newBytes (r : TCPReceiver) (seg : TCPSegment) : List UInt8 :=
  (r.segmentReceived seg).1.streamOut.buffer.drop r.streamOut.buffer.length

/-- **One arriving segment of `S`**, within `2 ^ 31` of what has been written. -/
theorem Tracks.segmentReceived (h : r.Tracks S isn written) (hseg : SegmentOf S isn a seg)
    (hlo : r.streamOut.nwritten < a + 2 ^ 31) (hhi : a < r.streamOut.nwritten + 2 ^ 31) :
    (r.segmentReceived seg).1.Tracks S isn (written ++ r.newBytes seg) := by
  unfold newBytes
  rcases segmentReceived_cases r seg with ⟨-, hr⟩ | ⟨i, hi, hr⟩
  · rw [hr]
    simpa using h
  · have hisn := h.learnIsn_eq hseg hi
    subst hisn
    rw [hseg.unwrap_eq (show r.streamOut.bytesWritten < _ from hlo) hhi] at hr
    rcases hr with ⟨-, hr⟩ | ⟨-, hr⟩
    · rw [hr]
      simpa [streamOut] using h.setIsn
    · -- the inbound stream grows by what the reassembler delivers
      have hacc := h.setIsn.accept hseg
        (decide (a + seg.lengthInSequenceSpace ≤ r.oldAbsAckno + r.windowSize))
      have hindex : (if a > 0 then a - 1 else 0) = a - 1 := by split_ifs <;> omega
      have hbuffer : (r.segmentReceived seg).1.streamOut.buffer =
          r.streamOut.buffer ++ r.reassembler.delivered seg.payload (a - 1) := by
        rw [hr, streamOut, TCPReceiver.accept]
        dsimp only
        rw [hindex, h.assembles.wellFormed.pushSubstring_output_buffer]
        rfl
      rw [hbuffer, List.drop_left', hr]
      · exact hacc
      · rfl

/-- **A read of the inbound stream.** -/
theorem Tracks.popOutput (h : r.Tracks S isn written) (len : ℕ) :
    (r.mapStreamOut (·.popOutput len)).Tracks S isn written :=
  ⟨h.isn_eq, h.assembles.popOutput len, h.finAbsSeq_eq⟩

theorem Tracks.setError (h : r.Tracks S isn written) :
    (r.mapStreamOut ByteStream.setError).Tracks S isn written :=
  ⟨h.isn_eq, h.assembles.setError, h.finAbsSeq_eq⟩

/-- As long as no FIN has been accepted, the stream may still grow. -/
theorem Tracks.append (h : r.Tracks S isn written) (hfin : r.finAbsSeq = 0) (T : List UInt8) :
    r.Tracks (S ++ T) isn written where
  isn_eq := h.isn_eq
  assembles := by
    have hflag : decide (r.finAbsSeq ≠ 0) = false := by simp [hfin]
    have hass := h.assembles
    rw [hflag] at hass ⊢
    exact hass.append T
  finAbsSeq_eq := fun hne => absurd hfin hne

/-- The FIN of a segment that starts at `a` falls inside the window. -/
def finFits (r : TCPReceiver) (a : ℕ) (seg : TCPSegment) : Bool :=
  seg.header.fin && (r.isn.isSome || seg.header.syn) && decide (r.InWindow a seg) &&
    decide (a + seg.lengthInSequenceSpace ≤ r.oldAbsAckno + r.windowSize)

/-- A segment without an initial sequence number, outside the window or empty has no FIN that
fits. -/
theorem finFits_eq_false
    (h : r.learnIsn seg = none ∨ ¬ r.InWindow a seg ∨ seg.lengthInSequenceSpace = 0) :
    r.finFits a seg = false := by
  rcases h with hnone | hout | hlen
  · unfold learnIsn at hnone
    split_ifs at hnone with hsyn
    simp_all [finFits]
  · simp [finFits, hout]
  · have hfin : seg.header.fin = false := by
      by_contra hf
      simp [TCPSegment.lengthInSequenceSpace, hf] at hlen
    simp [finFits, hfin]

/-- `fin_abs_seq` is set by the FINs that fall inside the window, and by nothing else. -/
theorem Tracks.finAbsSeq_ne_zero_iff (h : r.Tracks S isn written) (hseg : SegmentOf S isn a seg)
    (hlo : r.streamOut.nwritten < a + 2 ^ 31) (hhi : a < r.streamOut.nwritten + 2 ^ 31) :
    (r.segmentReceived seg).1.finAbsSeq ≠ 0 ↔ r.finAbsSeq ≠ 0 ∨ r.finFits a seg = true := by
  rcases segmentReceived_cases r seg with ⟨hnone, hr⟩ | ⟨i, hi, hr⟩
  · rw [hr, finFits_eq_false (Or.inl hnone)]
    simp
  · have hisn := h.learnIsn_eq hseg hi
    subst hisn
    have hknown : (r.isn.isSome || seg.header.syn) = true := by
      unfold learnIsn at hi
      split_ifs at hi with hsyn
      · simp_all
      · simp [hi]
    rw [hseg.unwrap_eq (show r.streamOut.bytesWritten < _ from hlo) hhi] at hr
    rcases hr with ⟨hout, hr⟩ | ⟨hwin, hr⟩
    · rw [hr, finFits_eq_false (Or.inr hout)]
      simp
    · rw [hr]
      unfold TCPReceiver.accept
      dsimp only
      by_cases hfin : seg.header.fin = true
      · -- a recorded position is the end of a segment with FIN, hence not zero
        have hend := hseg.fin_end hfin
        by_cases hfill : a + seg.lengthInSequenceSpace ≤ r.oldAbsAckno + r.windowSize
        · have hfits : r.finFits a seg = true := by simp [finFits, hfin, hknown, hwin, hfill]
          rw [if_pos (by simp [hfill, hfin])]
          exact ⟨fun _ => Or.inr hfits, fun _ => by omega⟩
        · simp [finFits, hfill]
      · simp [finFits, hfin]

end TCPReceiver

/-! ## Runs -/

/-- A call on a receiver: the arrival of a segment that starts at the absolute number `a`, or a read
of the inbound stream. -/
inductive ReceiverOp where
  | segmentReceived (a : ℕ) (seg : TCPSegment)
  | read (len : ℕ)
  deriving DecidableEq, Repr

/-- A receiver in use: `written` collects the bytes its calls wrote to the inbound stream,
`synArrived` says whether a SYN has arrived and `finAccepted` whether a FIN fell inside the
window. -/
structure ReceiverTrace where
  receiver : TCPReceiver
  written : List UInt8
  synArrived : Bool
  finAccepted : Bool

namespace ReceiverTrace

def new (capacity : ℕ) : ReceiverTrace :=
  ⟨TCPReceiver.new capacity, [], false, false⟩

def step (t : ReceiverTrace) : ReceiverOp → ReceiverTrace
  | .segmentReceived a seg =>
    { receiver := (t.receiver.segmentReceived seg).1
      written := t.written ++ t.receiver.newBytes seg
      synArrived := t.synArrived || seg.header.syn
      finAccepted := t.finAccepted || t.receiver.finFits a seg }
  | .read len => { t with receiver := t.receiver.mapStreamOut fun s => (s.read len).1 }

/-- The arriving segments are segments of `S`, and start within `2 ^ 31` of what has been
written. -/
def Arrives (S : List UInt8) (isn : WrappingInt32) (t : ReceiverTrace) : ReceiverOp → Prop
  | .segmentReceived a seg =>
    SegmentOf S isn a seg ∧ t.receiver.streamOut.bytesWritten < a + 2 ^ 31 ∧
      a < t.receiver.streamOut.bytesWritten + 2 ^ 31
  | .read _ => True

/-- **The invariant of a run**: the receiver works on `S`, and its fields agree with what has
arrived. -/
structure Tracks (S : List UInt8) (isn : WrappingInt32) (capacity : ℕ) (t : ReceiverTrace) :
    Prop where
  tracks : t.receiver.Tracks S isn t.written
  capacity_eq : t.receiver.reassembler.capacity = capacity
  synArrived_eq : t.synArrived = t.receiver.isn.isSome
  finAccepted_iff : t.finAccepted = true ↔ t.receiver.finAbsSeq ≠ 0

variable {S : List UInt8} {isn : WrappingInt32} {capacity : ℕ} {t : ReceiverTrace}

theorem tracks_new (h : 1 ≤ capacity) : (new capacity).Tracks S isn capacity where
  tracks := TCPReceiver.tracks_new S isn h
  capacity_eq := rfl
  synArrived_eq := rfl
  finAccepted_iff := by simp [new, TCPReceiver.new]

theorem step_tracks (t : ReceiverTrace) (op : ReceiverOp) (h : t.Tracks S isn capacity)
    (hop : t.Arrives S isn op) : (t.step op).Tracks S isn capacity := by
  cases op with
  | read len =>
    exact ⟨h.tracks.popOutput len, h.capacity_eq, h.synArrived_eq, h.finAccepted_iff⟩
  | segmentReceived a seg =>
    obtain ⟨hseg, hlo, hhi⟩ := hop
    refine ⟨h.tracks.segmentReceived hseg hlo hhi, ?_, ?_, ?_⟩
    · rw [← h.capacity_eq]
      exact (TCPReceiver.segmentReceived_progress h.tracks.assembles.wellFormed seg).capacity_eq
    · change (t.synArrived || seg.header.syn) = (t.receiver.segmentReceived seg).1.isn.isSome
      rw [TCPReceiver.segmentReceived_isn, h.synArrived_eq, TCPReceiver.learnIsn]
      cases hisn : t.receiver.isn <;> cases seg.header.syn <;> simp
    · change (t.finAccepted || t.receiver.finFits a seg) = true ↔
        (t.receiver.segmentReceived seg).1.finAbsSeq ≠ 0
      rw [h.tracks.finAbsSeq_ne_zero_iff hseg hlo hhi, Bool.or_eq_true, h.finAccepted_iff]

/-- No call moves the window back. -/
theorem step_progress (t : ReceiverTrace) (op : ReceiverOp) (h : t.Tracks S isn capacity) :
    TCPReceiver.Progress t.receiver (t.step op).receiver := by
  cases op with
  | segmentReceived a seg =>
    exact TCPReceiver.segmentReceived_progress h.tracks.assembles.wellFormed seg
  | read len => exact ⟨rfl, le_refl _, Nat.le_add_right _ _, fun he => he, fun he => he⟩

theorem exec_progress (h : t.Tracks S isn capacity) {ops : List ReceiverOp}
    (hops : Run.Always step (Arrives S isn) t ops) :
    TCPReceiver.Progress t.receiver (Run.exec step t ops).receiver :=
  Run.related (R := fun t t' : ReceiverTrace => TCPReceiver.Progress t.receiver t'.receiver)
    (fun t => TCPReceiver.Progress.refl t.receiver) TCPReceiver.Progress.trans step_tracks
    (fun t op ht _ => step_progress t op ht) h hops

end ReceiverTrace

/-- **The receiver is correct under any arrival order.** On every run of segments of `S` and reads:
the bytes written are a prefix of `S`; the acknowledgment number is empty until a SYN has arrived,
and from then on counts what is written and the end; the inbound stream has ended exactly when a
FIN was accepted and all of `S` is written; the window is the capacity less what is unread; and as
the run continues neither the acknowledgment number nor the end of the window moves back. -/
theorem receiver_correct_any_order (S : List UInt8) (isn : WrappingInt32) {capacity : ℕ}
    (hcap : 1 ≤ capacity) (ops later : List ReceiverOp)
    (hops : Run.Always ReceiverTrace.step (ReceiverTrace.Arrives S isn)
      (ReceiverTrace.new capacity) (ops ++ later)) :
    let t := Run.exec ReceiverTrace.step (ReceiverTrace.new capacity) ops
    let t' := Run.exec ReceiverTrace.step (ReceiverTrace.new capacity) (ops ++ later)
    let out := t.receiver.streamOut
    (t.written.length = out.bytesWritten ∧ t.written <+: S) ∧
      (t.synArrived = false → t.receiver.ackno = none) ∧
      (t.synArrived = true → t.receiver.ackno =
        some (wrap (1 + out.bytesWritten + (if out.inputEnded then 1 else 0)) isn)) ∧
      (out.inputEnded = true ↔ t.finAccepted = true ∧ out.bytesWritten = S.length) ∧
      (t.finAccepted = true ↔ t.receiver.finAbsSeq ≠ 0) ∧
      t.receiver.windowSize = capacity - (out.bytesWritten - out.bytesRead) ∧
      t.receiver.absAckno ≤ t'.receiver.absAckno ∧
      t.receiver.absAckno + t.receiver.windowSize ≤
        t'.receiver.absAckno + t'.receiver.windowSize := by
  intro t t' out
  obtain ⟨hnow, hlater⟩ := Run.always_append.mp hops
  have h : t.Tracks S isn capacity :=
    Run.invariant ReceiverTrace.step_tracks (ReceiverTrace.tracks_new hcap) hnow
  have ht' : t' = Run.exec ReceiverTrace.step t later := Run.exec_append _ _ _ _
  have h' : t'.Tracks S isn capacity := by
    rw [ht']
    exact Run.invariant ReceiverTrace.step_tracks h hlater
  have hprogress : TCPReceiver.Progress t.receiver t'.receiver := by
    rw [ht']
    exact ReceiverTrace.exec_progress h hlater
  refine ⟨⟨h.tracks.assembles.written_length, ?_⟩, ?_, ?_, ?_, h.finAccepted_iff, ?_,
    h.tracks.absAckno_le h'.tracks hprogress, h.tracks.windowEnd_le h'.tracks hprogress⟩
  · rw [h.tracks.assembles.written_eq]
    exact List.take_prefix _ _
  · intro hsyn
    rw [h.synArrived_eq, Option.isSome_eq_false_iff, Option.isNone_iff_eq_none] at hsyn
    rw [TCPReceiver.ackno, hsyn]
    rfl
  · intro hsyn
    exact h.tracks.ackno_eq (h.synArrived_eq.symm.trans hsyn)
  · rw [h.finAccepted_iff]
    exact h.tracks.inputEnded_iff
  · rw [← h.capacity_eq]
    exact h.tracks.windowSize_eq

/-- The theorem on a run in which the second byte of `[7, 8]` arrives with the FIN before the first
byte, across the wraparound of the sequence numbers. -/
theorem receiver_correct_any_order_fin_early :
    let isn : WrappingInt32 := ⟨0xFFFFFFFF⟩
    let syn : TCPSegment := { header := { seqno := isn, syn := true } }
    let fin : TCPSegment := { header := { seqno := ⟨1⟩, fin := true }, payload := [8] }
    let data : TCPSegment := { header := { seqno := ⟨0⟩ }, payload := [7] }
    let ops : List ReceiverOp :=
      [.segmentReceived 0 syn, .segmentReceived 2 fin, .segmentReceived 1 data]
    let t := Run.exec ReceiverTrace.step (ReceiverTrace.new 4) ops
    t.written <+: [7, 8] ∧ t.receiver.ackno = some ⟨3⟩ ∧
      t.receiver.streamOut.inputEnded = true := by
  have hops : Run.Always ReceiverTrace.step
      (ReceiverTrace.Arrives [7, 8] ⟨0xFFFFFFFF⟩) (ReceiverTrace.new 4)
      ([.segmentReceived 0 { header := { seqno := ⟨0xFFFFFFFF⟩, syn := true } },
        .segmentReceived 2 { header := { seqno := ⟨1⟩, fin := true }, payload := [8] },
        .segmentReceived 1 { header := { seqno := ⟨0⟩ }, payload := [7] }] ++ []) := by
    refine ⟨⟨⟨by decide, by decide, by decide, by decide⟩, by decide, by decide⟩,
      ⟨⟨by decide, by decide, by decide, by decide⟩, by decide, by decide⟩,
      ⟨⟨by decide, by decide, by decide, by decide⟩, by decide, by decide⟩, trivial⟩
  have h := receiver_correct_any_order [7, 8] ⟨0xFFFFFFFF⟩ (show 1 ≤ 4 by decide) _ _ hops
  exact ⟨h.1.2, by decide, by decide⟩

end Sponge
