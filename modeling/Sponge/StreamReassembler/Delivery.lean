import Mathlib.Tactic
import Sponge.Foundations.Run
import Sponge.StreamReassembler

/-!
# The reassembler delivers the stream

When all pushes are excerpts of one string `S`, the bytes written to the output are a prefix of
`S`, whatever the order, the overlap and the duplication of the pushes and whatever the reader does
in between. `Assembles S` is the invariant: the ring is a part of `S`, the output has received the
first bytes of `S`, and the end is known exactly when a push has announced it.

## Main definitions

* `StreamReassembler.Assembles S r written eofPushed`: the reassembler works on the stream `S`
* `ReassemblerTrace`, `ReassemblerTrace.step`: a reassembler in use, with what it has written

## Main results

* `StreamReassembler.Assembles.pushSubstring`, `StreamReassembler.Assembles.popOutput`: one step
* `reassembly_delivers_stream`: the whole run
-/

namespace Sponge

namespace StreamReassembler

/-- **The reassembler works on the stream `S`**: `written` are the bytes ever written to the
output, and `eofPushed` says whether a push has announced the end. -/
structure Assembles (S : List UInt8) (r : StreamReassembler) (written : List UInt8)
    (eofPushed : Bool) : Prop where
  wellFormed : r.WellFormed
  written_eq : written = S.take r.output.nwritten
  nwritten_le : r.output.nwritten ≤ S.length
  partOf : Reassembly.PartOf r.pending S
  eofIndex_eq : r.eofIndex = if eofPushed then some S.length else none
  inputEnded_iff :
    r.output.inputEnded = true ↔ eofPushed = true ∧ r.output.nwritten = S.length

variable {S : List UInt8} {r : StreamReassembler} {written : List UInt8} {eofPushed : Bool}

theorem assembles_new (S : List UInt8) {capacity : ℕ} (h : 0 < capacity) :
    Assembles S (new capacity) [] false where
  wellFormed := wellFormed_new h
  written_eq := by simp [new, ByteStream.new]
  nwritten_le := Nat.zero_le _
  partOf := by
    intro i a hi
    rw [pending_new] at hi
    cases hi
  eofIndex_eq := rfl
  inputEnded_iff := by simp [new, ByteStream.new]

theorem Assembles.written_length (h : Assembles S r written eofPushed) :
    written.length = r.output.nwritten := by
  rw [h.written_eq, List.length_take, min_eq_left h.nwritten_le]

section Push

variable (h : Assembles S r written eofPushed) {data : List UInt8} {index : ℕ}
  (hdata : ∀ k, k < data.length → data[k]? = S[index + k]?)

include h hdata

theorem Assembles.partOf_inserted : Reassembly.PartOf (r.inserted data index) S :=
  h.partOf.insert _ _ hdata

/-- The delivered bytes continue the stream. -/
theorem Assembles.delivered_eq :
    r.delivered data index =
      (S.drop r.output.nwritten).take (r.delivered data index).length := by
  rw [← h.wellFormed.rpos_eq]
  exact (h.partOf_inserted hdata).contiguous_eq r.rpos r.output.remainingCapacity

theorem Assembles.nwritten_add_le :
    r.output.nwritten + (r.delivered data index).length ≤ S.length := by
  have hlen := congrArg List.length (h.delivered_eq hdata)
  have hle := h.nwritten_le
  rw [List.length_take, List.length_drop] at hlen
  omega

/-- **One push** of an excerpt of `S`; only a push that ends with `S` may announce the end. -/
theorem Assembles.pushSubstring (eof : Bool) (heof : eof = true → index + data.length = S.length) :
    Assembles S (r.pushSubstring data index eof) (written ++ r.delivered data index)
      (eofPushed || eof) := by
  have hwf := h.wellFormed
  have hnw := hwf.pushSubstring_output_nwritten data index eof
  have hle := h.nwritten_add_le hdata
  have heofIndex : (r.pushSubstring data index eof).eofIndex =
      if eofPushed || eof then some S.length else none := by
    rw [hwf.pushSubstring_eofIndex_eq, h.eofIndex_eq]
    cases eof with
    | false => simp
    | true => simp [heof rfl]
  refine ⟨hwf.pushSubstring data index eof, ?_, ?_, ?_, heofIndex, ?_⟩
  · rw [hnw, List.take_add, ← h.delivered_eq hdata, h.written_eq]
  · rw [hnw]
    exact hle
  · -- what is left in the ring was inserted, now or before
    intro i a hi
    rw [hwf.pending_pushSubstring] at hi
    split_ifs at hi
    exact h.partOf_inserted hdata i a hi
  · -- the output ends when the count of written bytes reaches the announced end
    rw [hwf.pushSubstring_output_inputEnded, heofIndex, Bool.or_eq_true, h.inputEnded_iff,
      decide_eq_true_iff]
    constructor
    · rintro (⟨hp, hn⟩ | hn)
      · exact ⟨by simp [hp], by omega⟩
      · cases hp : (eofPushed || eof) with
        | false => simp [hp] at hn
        | true => exact ⟨rfl, by simpa [hp] using hn⟩
    · rintro ⟨hp, hn⟩
      exact Or.inr (by simp [hp, hn])

end Push

/-- What happens to the output apart from pushes does not concern the stream, as long as it neither
writes nor ends the output. -/
theorem Assembles.setOutput (h : Assembles S r written eofPushed) {out : ByteStream}
    (hwf : out.WellFormed) (hcapacity : out.capacity = r.output.capacity)
    (hnwritten : out.nwritten = r.output.nwritten)
    (hended : out.inputEnded = r.output.inputEnded) :
    Assembles S { r with output := out } written eofPushed where
  wellFormed := ⟨h.wellFormed.capacity_pos, hwf, hcapacity.trans h.wellFormed.output_capacity,
    h.wellFormed.buffer_length, h.wellFormed.bitMap_length,
    h.wellFormed.rpos_eq.trans hnwritten.symm⟩
  written_eq := by
    rw [hnwritten]
    exact h.written_eq
  nwritten_le := hnwritten ▸ h.nwritten_le
  partOf := h.partOf
  eofIndex_eq := h.eofIndex_eq
  inputEnded_iff := by
    rw [hended, hnwritten]
    exact h.inputEnded_iff

/-- **One read** of the output. -/
theorem Assembles.popOutput (h : Assembles S r written eofPushed) (len : ℕ) :
    Assembles S { r with output := r.output.popOutput len } written eofPushed :=
  h.setOutput (h.wellFormed.output.popOutput len) rfl rfl rfl

theorem Assembles.setError (h : Assembles S r written eofPushed) :
    Assembles S { r with output := r.output.setError } written eofPushed :=
  h.setOutput h.wellFormed.output.setError rfl rfl rfl

/-- As long as the end has not been announced, the stream may still grow. -/
theorem Assembles.append (h : Assembles S r written false) (T : List UInt8) :
    Assembles (S ++ T) r written false where
  wellFormed := h.wellFormed
  written_eq := by
    rw [List.take_append_of_le_length h.nwritten_le]
    exact h.written_eq
  nwritten_le := by
    rw [List.length_append]
    exact h.nwritten_le.trans (Nat.le_add_right _ _)
  partOf := h.partOf.append
  eofIndex_eq := h.eofIndex_eq
  inputEnded_iff := by
    have := h.inputEnded_iff
    simpa using this

/-- The occupancy flag of stream index `i`. -/
def stored (r : StreamReassembler) (i : ℕ) : Bool :=
  RingBuffer.get r.capacity r.bitMap i false

/-- **A push leaves nothing deliverable behind**: the output is full, or the next byte is not
stored. -/
theorem WellFormed.full_or_not_stored (h : r.WellFormed) (data : List UInt8) (index : ℕ)
    (eof : Bool) :
    (r.pushSubstring data index eof).output.remainingCapacity = 0 ∨
      (r.pushSubstring data index eof).stored
        (r.pushSubstring data index eof).output.bytesWritten = false := by
  have h' := h.pushSubstring data index eof
  rcases Reassembly.contiguous_stops (r.inserted data index) r.rpos r.output.remainingCapacity
    with hfull | hnone
  · -- the run filled the room of the output
    left
    have hsize : (r.pushSubstring data index eof).output.size =
        r.output.size + (r.delivered data index).length := by
      rw [h'.output.size_eq, h.pushSubstring_output_buffer, List.length_append,
        ← h.output.size_eq]
    have hcap : (r.pushSubstring data index eof).output.capacity = r.output.capacity := by
      rw [h'.output_capacity, h.pushSubstring_capacity, h.output_capacity]
    have hlen : (r.delivered data index).length = r.output.capacity - r.output.size := hfull
    unfold ByteStream.remainingCapacity
    omega
  · -- the run stopped at a missing byte, which is now at the base of the window
    right
    have hp := h.pending_pushSubstring data index eof
      (r.rpos + (r.delivered data index).length)
    have hnone' : r.inserted data index (r.rpos + (r.delivered data index).length) = none := hnone
    have hpos := h'.capacity_pos
    rw [if_pos le_rfl, hnone', ← h.pushSubstring_rpos] at hp
    change RingBuffer.get _ _ (r.pushSubstring data index eof).output.nwritten false = false
    rw [← h'.rpos_eq]
    by_contra hbit
    rw [pending, if_pos ⟨le_rfl, by omega, by simpa using hbit⟩] at hp
    cases hp

end StreamReassembler

/-! ## Runs -/

/-- A call on a reassembler of the stream `S`: a push of `S[i..j)`, or a read of its output. -/
inductive ReassemblerOp where
  | pushSubstring (i j : ℕ) (eof : Bool)
  | read (len : ℕ)
  deriving DecidableEq, Repr

/-- The pushes are excerpts of `S`, and only a push up to the end of `S` announces the end. -/
def ReassemblerOp.ExcerptOf (S : List UInt8) : ReassemblerOp → Prop
  | .pushSubstring i j eof => i ≤ j ∧ j ≤ S.length ∧ (eof = true → j = S.length)
  | .read _ => True

/-- A reassembler in use: `written` collects the bytes its calls wrote to the output, and
`eofPushed` whether a push announced the end. -/
structure ReassemblerTrace where
  reassembler : StreamReassembler
  written : List UInt8
  eofPushed : Bool

namespace ReassemblerTrace

def new (capacity : ℕ) : ReassemblerTrace :=
  ⟨StreamReassembler.new capacity, [], false⟩

def step (S : List UInt8) (t : ReassemblerTrace) : ReassemblerOp → ReassemblerTrace
  | .pushSubstring i j eof =>
    let r := t.reassembler.pushSubstring ((S.drop i).take (j - i)) i eof
    { reassembler := r
      written := t.written ++ r.output.buffer.drop t.reassembler.output.buffer.length
      eofPushed := t.eofPushed || eof }
  | .read len =>
    { t with
      reassembler :=
        { t.reassembler with output := (t.reassembler.output.read len).1 } }

/-- The trace works on the stream `S`. -/
def Assembles (S : List UInt8) (t : ReassemblerTrace) : Prop :=
  t.reassembler.Assembles S t.written t.eofPushed

theorem step_assembles {S : List UInt8} (t : ReassemblerTrace) (op : ReassemblerOp)
    (h : t.Assembles S) (hop : op.ExcerptOf S) : (t.step S op).Assembles S := by
  cases op with
  | read len => exact h.popOutput len
  | pushSubstring i j eof =>
    obtain ⟨hij, hj, heof⟩ := hop
    have hlen : ((S.drop i).take (j - i)).length = j - i := by
      rw [List.length_take, List.length_drop]
      omega
    have hdata : ∀ k, k < ((S.drop i).take (j - i)).length →
        ((S.drop i).take (j - i))[k]? = S[i + k]? := by
      intro k hk
      rw [hlen] at hk
      rw [List.getElem?_take_of_lt hk, List.getElem?_drop]
    have hpush := h.pushSubstring hdata eof (fun he => by
      rw [hlen, ← heof he]
      omega)
    -- the recorded bytes are those by which the output has grown
    have hwritten : (t.step S (.pushSubstring i j eof)).written =
        t.written ++ t.reassembler.delivered ((S.drop i).take (j - i)) i := by
      change t.written ++ List.drop _ (StreamReassembler.pushSubstring _ _ _ _).output.buffer = _
      rw [h.wellFormed.pushSubstring_output_buffer, List.drop_left']
      rfl
    rw [← hwritten] at hpush
    exact hpush

end ReassemblerTrace

/-- **Reassembly delivers exactly the stream.** On every run of excerpts of `S` and reads, the bytes
ever written to the output are a prefix of `S`, the output has ended exactly when the end was
announced and all of `S` is written, and each push leaves the output full or the next byte of `S`
not stored. Indices are natural numbers here: those of a push stay below `2 ^ 64` since the size of
`S` does; sums that may reach it are the subject of `StreamReassembler.pushSubstring64`. -/
theorem reassembly_delivers_stream (S : List UInt8) {capacity : ℕ} (hcap : 1 ≤ capacity)
    (ops : List ReassemblerOp) (hops : ∀ op ∈ ops, op.ExcerptOf S) :
    let t := Run.exec (ReassemblerTrace.step S) (ReassemblerTrace.new capacity) ops
    t.written.length = t.reassembler.output.bytesWritten ∧ t.written <+: S ∧
      (t.reassembler.output.inputEnded = true ↔
        t.eofPushed = true ∧ t.reassembler.output.bytesWritten = S.length) ∧
      ∀ i j eof, (ReassemblerOp.pushSubstring i j eof).ExcerptOf S →
        let r := (t.step S (.pushSubstring i j eof)).reassembler
        r.output.remainingCapacity = 0 ∨ r.stored r.output.bytesWritten = false := by
  intro t
  have h : t.Assembles S :=
    Run.invariant ReassemblerTrace.step_assembles (StreamReassembler.assembles_new S hcap)
      (Run.always_of_forall hops)
  refine ⟨h.written_length, ?_, h.inputEnded_iff, ?_⟩
  · rw [h.written_eq]
    exact List.take_prefix _ _
  · intro i j eof _
    exact h.wellFormed.full_or_not_stored _ i eof

/-- A run that pushes the tail of `[1, 2, 3]` first and reads in between writes all of it, and the
output ends. -/
theorem reassembly_delivers_stream_out_of_order :
    let ops : List ReassemblerOp := [.pushSubstring 1 3 true, .read 4, .pushSubstring 0 2 false]
    let t := Run.exec (ReassemblerTrace.step [1, 2, 3]) (ReassemblerTrace.new 4) ops
    (∀ op ∈ ops, op.ExcerptOf [1, 2, 3]) ∧ t.written = [1, 2, 3] ∧
      t.reassembler.output.inputEnded = true := by
  intro ops t
  have hops : ∀ op ∈ ops, op.ExcerptOf [1, 2, 3] := by
    simp [ops, ReassemblerOp.ExcerptOf]
  obtain ⟨hlength, hpre, hended, -⟩ :=
    reassembly_delivers_stream [1, 2, 3] (by decide : 1 ≤ 4) ops hops
  have hbytes : t.reassembler.output.bytesWritten = 3 := by decide
  exact ⟨hops, hpre.eq_of_length (hlength.trans hbytes), hended.mpr ⟨by decide, hbytes⟩⟩

end Sponge
