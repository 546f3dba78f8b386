import Mathlib.Tactic
import Sponge.TCPHelpers
import Sponge.StreamReassembler.Delivery

/-!
# The receiver

`TCPReceiver` learns the initial sequence number from the first SYN, translates the sequence numbers
of arriving segments to stream indices for its reassembler, and computes the acknowledgment number
and the window to advertise. It keeps the position after an accepted FIN in `fin_abs_seq`, where
`0` means that no FIN has been accepted.

## Main definitions

* `TCPReceiver`, `TCPReceiver.segmentReceived`, `TCPReceiver.absAckno`, `TCPReceiver.ackno`,
  `TCPReceiver.windowSize`

## Main results

* `TCPReceiver.segmentReceived_cases`: a segment is dropped, teaches only the initial sequence
  number, or is accepted
-/

namespace Sponge

/-- `TCPReceiver` of `tcp_receiver.hh`. -/
structure TCPReceiver where
  reassembler : StreamReassembler
  isn : Option WrappingInt32
  finAbsSeq : ℕ
  deriving DecidableEq, Repr

namespace TCPReceiver

def new (capacity : ℕ) : TCPReceiver where
  reassembler := StreamReassembler.new capacity
  isn := none
  finAbsSeq := 0

/-- The inbound stream. -/
def streamOut (r : TCPReceiver) : ByteStream := r.reassembler.output

/-- Apply `f` to the inbound stream. -/
def mapStreamOut (f : ByteStream → ByteStream) (r : TCPReceiver) : TCPReceiver :=
  { r with reassembler := { r.reassembler with output := f r.reassembler.output } }

/-- The absolute number of the first byte not yet received: FIN counts once all bytes before it
are written. -/
def absAckno (r : TCPReceiver) : ℕ :=
  let absAcknoWithoutFin := 1 + r.streamOut.bytesWritten
  if absAcknoWithoutFin + 1 = r.finAbsSeq then r.finAbsSeq else absAcknoWithoutFin

/-- The acknowledgment number to send, empty until a SYN has been received. -/
def ackno (r : TCPReceiver) : Option WrappingInt32 :=
  r.isn.map fun isn => wrap r.absAckno isn

/-- The window to advertise: the room of the inbound stream. -/
def windowSize (r : TCPReceiver) : ℕ := r.streamOut.remainingCapacity

/-- The start of the window for an arriving segment: `0` while the SYN is awaited. -/
def oldAbsAckno (r : TCPReceiver) : ℕ :=
  if r.isn.isSome then r.absAckno else 0

/-- The initial sequence number after a segment: the first SYN sets it. -/
def learnIsn (r : TCPReceiver) (seg : TCPSegment) : Option WrappingInt32 :=
  if seg.header.syn && r.isn.isNone then some seg.header.seqno else r.isn

/-- The last part of `segment_received`: a FIN that falls into the window is recorded, and the
payload goes to the reassembler at its stream index. -/
def accept (r : TCPReceiver) (absSeq : ℕ) (allFill : Bool) (seg : TCPSegment) : TCPReceiver :=
  let finAbsSeq :=
    if allFill && seg.header.fin then absSeq + seg.lengthInSequenceSpace else r.finAbsSeq
  -- the SYN has no index of its own
  let streamIndices := if absSeq > 0 then absSeq - 1 else 0
  { r with
    finAbsSeq := finAbsSeq
    reassembler := r.reassembler.pushSubstring seg.payload streamIndices
      (streamIndices + seg.payload.length + 2 == finAbsSeq) }

/-- Handle an inbound segment; the second component says whether some part of it was inside the
window. -/
def segmentReceived (r : TCPReceiver) (seg : TCPSegment) : TCPReceiver × Bool :=
  let oldAbsAckno := r.oldAbsAckno
  match r.learnIsn seg with
  | none => (r, false)
  | some isn =>
    let r := { r with isn := some isn }
    let checkpoint := r.streamOut.bytesWritten
    let absSeq := unwrap seg.header.seqno isn checkpoint
    let oldWindowSize := r.windowSize
    let length := seg.lengthInSequenceSpace
    if r.finAbsSeq ≠ 0 ∧ r.finAbsSeq ≤ absSeq ∧ length = 0 then
      -- an empty segment after the FIN
      (r, true)
    else if ¬(absSeq < oldAbsAckno + oldWindowSize ∧ oldAbsAckno < absSeq + length) then
      -- outside the window; an empty segment at its start is in order all the same
      (r, length == 0 && absSeq == oldAbsAckno)
    else
      let allFill := decide (absSeq + length ≤ oldAbsAckno + oldWindowSize)
      (r.accept absSeq allFill seg, true)

def unassembledBytes (r : TCPReceiver) : ℕ := r.reassembler.unassembledBytes

/-! ## The cases of an arriving segment -/

variable {r : TCPReceiver} {seg : TCPSegment}

/-- Some part of a segment that starts at `absSeq` lies in the window. -/
def InWindow (r : TCPReceiver) (absSeq : ℕ) (seg : TCPSegment) : Prop :=
  absSeq < r.oldAbsAckno + r.windowSize ∧ r.oldAbsAckno < absSeq + seg.lengthInSequenceSpace

instance (r : TCPReceiver) (absSeq : ℕ) (seg : TCPSegment) : Decidable (r.InWindow absSeq seg) :=
  inferInstanceAs (Decidable (_ ∧ _))

/-- **What an accepted segment hands to the reassembler**: its payload, at the index of its first
byte. -/
theorem accept_reassembler (r : TCPReceiver) (absSeq : ℕ) (allFill : Bool) (seg : TCPSegment) :
    (r.accept absSeq allFill seg).reassembler =
      r.reassembler.pushSubstring seg.payload (absSeq - 1)
        (absSeq - 1 + seg.payload.length + 2 == (r.accept absSeq allFill seg).finAbsSeq) := by
  have hindex : (if absSeq > 0 then absSeq - 1 else 0) = absSeq - 1 := by split_ifs <;> omega
  unfold accept
  dsimp only
  rw [hindex]

/-- **What a segment does**: without an initial sequence number nothing; outside the window, or as
an empty segment past the FIN, it teaches at most the initial sequence number; otherwise it is
accepted. -/
theorem segmentReceived_cases (r : TCPReceiver) (seg : TCPSegment) :
    (r.learnIsn seg = none ∧ (r.segmentReceived seg).1 = r) ∨
      ∃ isn, r.learnIsn seg = some isn ∧
        let absSeq := unwrap seg.header.seqno isn r.streamOut.bytesWritten
        (((¬ r.InWindow absSeq seg ∨ seg.lengthInSequenceSpace = 0) ∧
            (r.segmentReceived seg).1 = { r with isn := some isn }) ∨
          (r.InWindow absSeq seg ∧
            (r.segmentReceived seg).1 =
              { r with isn := some isn }.accept absSeq
                (decide (absSeq + seg.lengthInSequenceSpace ≤ r.oldAbsAckno + r.windowSize))
                seg)) := by
  unfold segmentReceived
  cases hisn : r.learnIsn seg with
  | none => exact Or.inl ⟨rfl, rfl⟩
  | some isn =>
    refine Or.inr ⟨isn, rfl, ?_⟩
    dsimp only
    split_ifs with hfin hwin
    · exact Or.inl ⟨Or.inr hfin.2.2, rfl⟩
    · exact Or.inr ⟨hwin, rfl⟩
    · exact Or.inl ⟨Or.inl hwin, rfl⟩

theorem learnIsn_of_isSome {isn : WrappingInt32} (h : r.isn = some isn) :
    r.learnIsn seg = some isn := by
  simp [learnIsn, h]

theorem isn_eq_none_of_learnIsn (h : r.learnIsn seg = none) : r.isn = none := by
  unfold learnIsn at h
  split_ifs at h
  exact h

/-- Once known, the initial sequence number does not change. -/
theorem segmentReceived_isn : (r.segmentReceived seg).1.isn = r.learnIsn seg := by
  rcases segmentReceived_cases r seg with ⟨hisn, hr⟩ | ⟨isn, hisn, ⟨-, hr⟩ | ⟨-, hr⟩⟩
  · rw [hr, hisn, isn_eq_none_of_learnIsn hisn]
  · rw [hr, hisn]
  · rw [hr, hisn]
    rfl

theorem segmentReceived_capacity :
    (r.segmentReceived seg).1.streamOut.capacity = r.streamOut.capacity := by
  rcases segmentReceived_cases r seg with ⟨-, hr⟩ | ⟨isn, -, ⟨-, hr⟩ | ⟨-, hr⟩⟩
  · rw [hr]
  · rw [hr]
    rfl
  · rw [hr]
    exact StreamReassembler.pushSubstring_output_capacity _ _ _

/-- An ended inbound stream stays ended. -/
theorem segmentReceived_inputEnded (h : r.streamOut.inputEnded = true) :
    (r.segmentReceived seg).1.streamOut.inputEnded = true := by
  rcases segmentReceived_cases r seg with ⟨-, hr⟩ | ⟨isn, -, ⟨-, hr⟩ | ⟨-, hr⟩⟩
  · rwa [hr]
  · rwa [hr]
  · rw [hr]
    exact StreamReassembler.pushSubstring_inputEnded _ _ _ h

/-- The receiver has moved on from `r` to `r'`: nothing that was written, read or ended is taken
back, and no error is forgotten. -/
structure Progress (r r' : TCPReceiver) : Prop where
  capacity_eq : r'.reassembler.capacity = r.reassembler.capacity
  nwritten_le : r.streamOut.nwritten ≤ r'.streamOut.nwritten
  nread_le : r.streamOut.nread ≤ r'.streamOut.nread
  inputEnded : r.streamOut.inputEnded = true → r'.streamOut.inputEnded = true
  error : r.streamOut.error = true → r'.streamOut.error = true

theorem Progress.refl (r : TCPReceiver) : Progress r r :=
  ⟨rfl, le_refl _, le_refl _, fun he => he, fun he => he⟩

theorem Progress.trans {r r' r'' : TCPReceiver} (h : Progress r r') (h' : Progress r' r'') :
    Progress r r'' :=
  ⟨h'.capacity_eq.trans h.capacity_eq, h.nwritten_le.trans h'.nwritten_le,
    h.nread_le.trans h'.nread_le, fun he => h'.inputEnded (h.inputEnded he),
    fun he => h'.error (h.error he)⟩

/-- Every segment moves the receiver on, whatever its contents. -/
theorem segmentReceived_progress (h : r.reassembler.WellFormed) (seg : TCPSegment) :
    Progress r (r.segmentReceived seg).1 := by
  rcases segmentReceived_cases r seg with ⟨-, hr⟩ | ⟨isn, -, ⟨-, hr⟩ | ⟨-, hr⟩⟩
  · rw [hr]
    exact Progress.refl r
  · rw [hr]
    exact ⟨rfl, le_refl _, le_refl _, fun he => he, fun he => he⟩
  · rw [hr]
    refine ⟨h.pushSubstring_capacity _ _ _, ?_, ?_, ?_,
      (StreamReassembler.pushSubstring_output_error _ _ _).trans⟩
    · exact (h.pushSubstring_output_nwritten _ _ _).symm ▸ Nat.le_add_right _ _
    · exact (h.pushSubstring_output_nread _ _ _).symm ▸ le_refl _
    · intro he
      change (StreamReassembler.pushSubstring _ _ _ _).output.inputEnded = true
      rw [h.pushSubstring_output_inputEnded]
      simp only [streamOut] at he
      simp [he]

@[simp] theorem mapStreamOut_streamOut (f : ByteStream → ByteStream) :
    (r.mapStreamOut f).streamOut = f r.streamOut := rfl

@[simp] theorem mapStreamOut_finAbsSeq (f : ByteStream → ByteStream) :
    (r.mapStreamOut f).finAbsSeq = r.finAbsSeq := rfl

/-- An operation on the inbound stream that writes nothing leaves the acknowledgment number. -/
theorem mapStreamOut_absAckno {f : ByteStream → ByteStream}
    (hf : (f r.streamOut).nwritten = r.streamOut.nwritten) :
    (r.mapStreamOut f).absAckno = r.absAckno := by
  unfold absAckno
  rw [mapStreamOut_streamOut, mapStreamOut_finAbsSeq, ByteStream.bytesWritten, hf]
  rfl

theorem ackno_isSome_iff : r.ackno.isSome = r.isn.isSome := by
  simp [ackno]

theorem ackno_eq_none_iff : r.ackno = none ↔ r.isn = none := by
  simp [ackno]

/-- The acknowledgment number is known from the first SYN on. -/
theorem segmentReceived_ackno_eq_none_iff :
    (r.segmentReceived seg).1.ackno = none ↔ r.ackno = none ∧ seg.header.syn = false := by
  rw [ackno_eq_none_iff, ackno_eq_none_iff, segmentReceived_isn, learnIsn]
  cases r.isn <;> cases seg.header.syn <;> simp

end TCPReceiver

end Sponge
