import Mathlib.Tactic
import Sponge.WrappingIntegers

/-!
# Segments and configuration

The data exchanged by two endpoints: the TCP header, the segment with its payload, and the
configuration of an endpoint. A segment occupies sequence numbers: one for each payload byte, one
for SYN and one for FIN.

## Main definitions

* `TCPHeader`, `TCPSegment`, `TCPSegment.lengthInSequenceSpace`, `TCPConfig`
* `seqLength`, `Contiguous`: the sequence numbers of a list of segments, and lists in which each
  segment starts where the one before it ends
* `SegmentOf S isn a seg`: `seg` is the segment of the stream `S` that starts at the absolute
  sequence number `a`

## Main results

* `contiguous_append`: contiguity of a concatenation
* `SegmentOf.append`: a segment without FIN is a segment of every extension of its stream
-/

namespace Sponge

/-- The TCP header, with the default values of `tcp_header.hh`. -/
structure TCPHeader where
  sport : UInt16 := 0
  dport : UInt16 := 0
  seqno : WrappingInt32 := ⟨0⟩
  ackno : WrappingInt32 := ⟨0⟩
  doff : UInt8 := 5
  urg : Bool := false
  ack : Bool := false
  psh : Bool := false
  rst : Bool := false
  syn : Bool := false
  fin : Bool := false
  win : UInt16 := 0
  cksum : UInt16 := 0
  uptr : UInt16 := 0
  deriving DecidableEq, Repr

structure TCPSegment where
  header : TCPHeader := {}
  payload : List UInt8 := []
  deriving DecidableEq, Repr

/-- The payload length, plus one for SYN and one for FIN. -/
def TCPSegment.lengthInSequenceSpace (seg : TCPSegment) : ℕ :=
  seg.payload.length + (if seg.header.syn then 1 else 0) + (if seg.header.fin then 1 else 0)

/-- The configuration of an endpoint: `TCPConfig` of `tcp_config.hh`. -/
structure TCPConfig where
  rtTimeout : UInt16 := 1000
  recvCapacity : ℕ := 64000
  sendCapacity : ℕ := 64000
  fixedIsn : Option WrappingInt32 := none
  deriving DecidableEq, Repr

namespace TCPConfig

/-- Conservative maximal payload of a segment. -/
def maxPayloadSize : ℕ := 1000

/-- Retransmissions before an endpoint gives up. -/
def maxRetxAttempts : ℕ := 8

end TCPConfig

/-! ## Contiguous segments -/

/-- The sequence numbers that a list of segments occupies. -/
def seqLength (segs : List TCPSegment) : ℕ :=
  (segs.map TCPSegment.lengthInSequenceSpace).sum

@[simp] theorem seqLength_nil : seqLength [] = 0 := rfl

@[simp] theorem seqLength_cons (seg : TCPSegment) (segs : List TCPSegment) :
    seqLength (seg :: segs) = seg.lengthInSequenceSpace + seqLength segs := by
  simp [seqLength]

@[simp] theorem seqLength_append (segs segs' : List TCPSegment) :
    seqLength (segs ++ segs') = seqLength segs + seqLength segs' := by
  simp [seqLength]

/-- The segments start at the absolute sequence number `a`, each where the one before it ends, and
each occupies at least one sequence number. -/
def Contiguous (isn : WrappingInt32) : ℕ → List TCPSegment → Prop
  | _, [] => True
  | a, seg :: segs =>
    seg.header.seqno = wrap a isn ∧ 0 < seg.lengthInSequenceSpace ∧
      Contiguous isn (a + seg.lengthInSequenceSpace) segs

variable {isn : WrappingInt32} {a : ℕ} {seg : TCPSegment} {segs segs' : List TCPSegment}

@[simp] theorem contiguous_nil : Contiguous isn a [] := trivial

@[simp] theorem contiguous_cons :
    Contiguous isn a (seg :: segs) ↔ seg.header.seqno = wrap a isn ∧
      0 < seg.lengthInSequenceSpace ∧ Contiguous isn (a + seg.lengthInSequenceSpace) segs :=
  Iff.rfl

theorem contiguous_append :
    Contiguous isn a (segs ++ segs') ↔
      Contiguous isn a segs ∧ Contiguous isn (a + seqLength segs) segs' := by
  induction segs generalizing a with
  | nil => simp
  | cons seg segs ih => simp [ih, and_assoc, Nat.add_assoc]

/-- A nonempty contiguous list occupies sequence numbers. -/
theorem Contiguous.seqLength_pos (h : Contiguous isn a segs) (hne : segs ≠ []) :
    0 < seqLength segs := by
  cases segs with
  | nil => exact absurd rfl hne
  | cons seg segs =>
    rw [seqLength_cons]
    exact Nat.lt_of_lt_of_le h.2.1 (Nat.le_add_right _ _)

/-- So does each of its segments. -/
theorem Contiguous.length_pos (h : Contiguous isn a segs) (hseg : seg ∈ segs) :
    0 < seg.lengthInSequenceSpace := by
  obtain ⟨before, after, rfl⟩ := List.append_of_mem hseg
  exact (contiguous_append.mp h).2.2.1

theorem Contiguous.seqLength_eq_zero_iff (h : Contiguous isn a segs) :
    seqLength segs = 0 ↔ segs = [] := by
  constructor
  · intro h0
    by_contra hne
    have := h.seqLength_pos hne
    omega
  · rintro rfl
    rfl

/-- FIN stands at most on the last segment. -/
def FinLast : List TCPSegment → Prop
  | [] => True
  | seg :: segs => (seg.header.fin = true → segs = []) ∧ FinLast segs

theorem finLast_append (h : ∀ seg ∈ segs, seg.header.fin = false) (h' : FinLast segs') :
    FinLast (segs ++ segs') := by
  induction segs with
  | nil => exact h'
  | cons seg segs ih =>
    obtain ⟨hseg, hsegs⟩ := List.forall_mem_cons.mp h
    exact ⟨fun hfin => absurd hfin (by simp [hseg]), ih hsegs⟩

theorem FinLast.eq_nil (h : FinLast (segs ++ seg :: segs')) (hfin : seg.header.fin = true) :
    segs' = [] := by
  induction segs with
  | nil => exact h.1 hfin
  | cons seg' segs ih => exact ih h.2

/-! ## Segments of a stream -/

/-- `seg` is a segment of the stream `S` that starts at the absolute sequence number `a`: SYN
occupies number `0`, byte `k` of the stream number `k + 1`, and FIN the number after the last
byte. -/
structure SegmentOf (S : List UInt8) (isn : WrappingInt32) (a : ℕ) (seg : TCPSegment) : Prop where
  seqno : seg.header.seqno = wrap a isn
  syn : seg.header.syn = true ↔ a = 0
  payload : seg.payload = (S.drop (a - 1)).take seg.payload.length
  fin : seg.header.fin = true → a - 1 + seg.payload.length = S.length

variable {S T : List UInt8}

theorem SegmentOf.length_le (h : SegmentOf S isn a seg) :
    seg.payload = [] ∨ a - 1 + seg.payload.length ≤ S.length := by
  have hlen := congrArg List.length h.payload
  rw [List.length_take, List.length_drop] at hlen
  -- an empty payload may stand beyond the end
  rcases Nat.eq_zero_or_pos seg.payload.length with h0 | hpos
  · exact Or.inl (List.length_eq_zero_iff.mp h0)
  · exact Or.inr (by omega)

/-- A segment within `2 ^ 31` of the checkpoint is found at its place. -/
theorem SegmentOf.unwrap_eq (h : SegmentOf S isn a seg) {checkpoint : ℕ}
    (hlo : checkpoint < a + 2 ^ 31) (hhi : a < checkpoint + 2 ^ 31) :
    unwrap seg.header.seqno isn checkpoint = a := by
  rw [h.seqno]
  exact unwrap_wrap isn hlo hhi

/-- The bytes of the payload are bytes of the stream, each at its index. -/
theorem SegmentOf.getElem? (h : SegmentOf S isn a seg) {k : ℕ} (hk : k < seg.payload.length) :
    seg.payload[k]? = S[a - 1 + k]? := by
  rw [h.payload, List.getElem?_take_of_lt hk, List.getElem?_drop]

/-- A segment with FIN ends after the FIN of the stream. -/
theorem SegmentOf.fin_end (hseg : SegmentOf S isn a seg) (hfin : seg.header.fin = true) :
    a + seg.lengthInSequenceSpace = S.length + 2 := by
  have hend := hseg.fin hfin
  unfold TCPSegment.lengthInSequenceSpace
  rw [hfin]
  by_cases ha : a = 0
  · -- SYN and FIN on one segment
    rw [hseg.syn.mpr ha]
    simp only [if_true]
    omega
  · have hsyn : seg.header.syn = false := by simpa [ha] using hseg.syn
    rw [hsyn]
    simp only [if_true, Bool.false_eq_true, if_false]
    omega

theorem SegmentOf.append (h : SegmentOf S isn a seg) (hfin : seg.header.fin = false) :
    SegmentOf (S ++ T) isn a seg := by
  refine ⟨h.seqno, h.syn, ?_, fun hf => absurd hf (by simp [hfin])⟩
  rcases h.length_le with hnil | hle
  · simp [hnil]
  · rw [List.drop_append_of_le_length (by omega), List.take_append_of_le_length]
    · exact h.payload
    · rw [List.length_drop]
      omega

/-- The header fields an owner stamps on a segment do not change which part of the stream it
is. -/
theorem SegmentOf.of_header_eq (h : SegmentOf S isn a seg) {seg' : TCPSegment}
    (hseqno : seg'.header.seqno = seg.header.seqno) (hsyn : seg'.header.syn = seg.header.syn)
    (hfin : seg'.header.fin = seg.header.fin) (hpayload : seg'.payload = seg.payload) :
    SegmentOf S isn a seg' := by
  refine ⟨hseqno.trans h.seqno, hsyn ▸ h.syn, ?_, ?_⟩
  · rw [hpayload]
    exact h.payload
  · rw [hfin, hpayload]
    exact h.fin

end Sponge
