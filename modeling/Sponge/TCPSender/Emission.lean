import Mathlib.Tactic
import Sponge.TCPSender

/-!
# What the sender emits

`fill_window` creates segments in three places: the SYN, the rounds of its loop, and the probe of a
zero window. `Emits s s' new` says once what all of them do: the segments `new` are appended to
both queues, numbered from the next sequence number on, their payloads are the next bytes of the
stream, and FIN stands only on the last of them, when the stream has ended. Everything else about
the output of the sender is derived from it.

## Main definitions

* `TCPSender.Emits s s' new`: from `s` to `s'` the segments `new` are sent

## Main results

* `TCPSender.fillWindow_syn`: the first call sends the SYN
* `TCPSender.fillWindow_of_idle`, `TCPSender.fillWindow_emits`: a later call sends nothing exactly
  when the sender is idle, and otherwise stays within the free space
-/

namespace Sponge

/-- The payload bytes of a list of segments. -/
def payloads (segs : List TCPSegment) : List UInt8 :=
  segs.flatMap TCPSegment.payload

@[simp] theorem payloads_nil : payloads [] = [] := rfl

@[simp] theorem payloads_cons (seg : TCPSegment) (segs : List TCPSegment) :
    payloads (seg :: segs) = seg.payload ++ payloads segs := by
  simp [payloads]

@[simp] theorem payloads_append (segs segs' : List TCPSegment) :
    payloads (segs ++ segs') = payloads segs ++ payloads segs' := by
  simp [payloads]

/-- The segment has only the header fields that a sender sets: the rest is left to the owner. -/
def TCPSegment.Plain (seg : TCPSegment) : Prop :=
  seg = { header := { seqno := seg.header.seqno, syn := seg.header.syn, fin := seg.header.fin },
          payload := seg.payload }

/-- Subtraction of 16-bit numbers that does not wrap. -/
theorem toNat_sub_ofNat {x : UInt16} {n : ℕ} (h : n ≤ x.toNat) :
    (x - UInt16.ofNat n).toNat = x.toNat - n := by
  have := x.toNat_lt
  rw [UInt16.toNat_sub, UInt16.toNat_ofNat']
  omega

theorem sub_ofNat_add (x : UInt16) (m n : ℕ) :
    x - UInt16.ofNat (m + n) = x - UInt16.ofNat m - UInt16.ofNat n := by
  rw [← UInt16.toNat_inj]
  simp only [UInt16.toNat_sub, UInt16.toNat_ofNat']
  omega

theorem ne_zero_iff_toNat_pos {x : UInt16} : x ≠ 0 ↔ 0 < x.toNat := by
  rw [ne_eq, ← UInt16.toNat_inj, Nat.pos_iff_ne_zero]
  rfl

namespace TCPSender

/-- **The segments `new` are sent** from `s` to `s'`. -/
structure Emits (s s' : TCPSender) (new : List TCPSegment) : Prop where
  isn_eq : s'.isn = s.isn
  synSent_eq : s'.synSent = s.synSent
  windowSize_eq : s'.receiverWindowSize = s.receiverWindowSize
  retransmissions_eq : s'.consecutiveRetransmissions = s.consecutiveRetransmissions
  timeout_eq : s'.initialRetransmissionTimeout = s.initialRetransmissionTimeout
  rto_eq : s'.rto = s.rto
  segmentsOut_eq : s'.segmentsOut = s.segmentsOut ++ new
  outstanding_eq : s'.segmentsOutstanding = s.segmentsOutstanding ++ new
  nextSeqno_eq : s'.nextSeqno = s.nextSeqno + seqLength new
  bytesInFlight_eq : s'.bytesInFlight = s.bytesInFlight + seqLength new
  freeSpace_eq : s'.receiverFreeSpace = s.receiverFreeSpace - UInt16.ofNat (seqLength new)
  timerRunning_eq : s'.timerRunning = (s.timerRunning || !new.isEmpty)
  contiguous : Contiguous s.isn s.nextSeqno new
  plain : ∀ seg ∈ new, seg.Plain
  payload_le : ∀ seg ∈ new, seg.payload.length ≤ TCPConfig.maxPayloadSize
  wellFormed : s'.stream.WellFormed
  buffer_eq : s.stream.buffer = payloads new ++ s'.stream.buffer
  nread_eq : s'.stream.nread = s.stream.nread + (payloads new).length
  nwritten_eq : s'.stream.nwritten = s.stream.nwritten
  capacity_eq : s'.stream.capacity = s.stream.capacity
  inputEnded_eq : s'.stream.inputEnded = s.stream.inputEnded
  error_eq : s'.stream.error = s.stream.error
  finSent_eq : s'.finSent = (s.finSent || new.any fun seg => seg.header.fin)
  finLast : FinLast new
  fin_eof : ∀ seg ∈ new, seg.header.fin = true → s'.stream.eof = true

variable {s s' s'' : TCPSender} {new new' : List TCPSegment}

theorem Emits.refl (h : s.stream.WellFormed) : Emits s s [] where
  isn_eq := rfl
  synSent_eq := rfl
  windowSize_eq := rfl
  retransmissions_eq := rfl
  timeout_eq := rfl
  rto_eq := rfl
  segmentsOut_eq := (List.append_nil _).symm
  outstanding_eq := (List.append_nil _).symm
  nextSeqno_eq := rfl
  bytesInFlight_eq := rfl
  freeSpace_eq := by simp
  timerRunning_eq := by simp
  contiguous := trivial
  plain := by simp
  payload_le := by simp
  wellFormed := h
  buffer_eq := rfl
  nread_eq := rfl
  nwritten_eq := rfl
  capacity_eq := rfl
  inputEnded_eq := rfl
  error_eq := rfl
  finSent_eq := by simp
  finLast := trivial
  fin_eof := by simp

/-- Two emissions in a row; nothing follows a FIN. -/
theorem Emits.trans (h : Emits s s' new) (h' : Emits s' s'' new')
    (hfin : ∀ seg ∈ new, seg.header.fin = false) : Emits s s'' (new ++ new') where
  isn_eq := h'.isn_eq.trans h.isn_eq
  synSent_eq := h'.synSent_eq.trans h.synSent_eq
  windowSize_eq := h'.windowSize_eq.trans h.windowSize_eq
  retransmissions_eq := h'.retransmissions_eq.trans h.retransmissions_eq
  timeout_eq := h'.timeout_eq.trans h.timeout_eq
  rto_eq := h'.rto_eq.trans h.rto_eq
  segmentsOut_eq := by rw [h'.segmentsOut_eq, h.segmentsOut_eq, List.append_assoc]
  outstanding_eq := by rw [h'.outstanding_eq, h.outstanding_eq, List.append_assoc]
  nextSeqno_eq := by rw [h'.nextSeqno_eq, h.nextSeqno_eq, seqLength_append, Nat.add_assoc]
  bytesInFlight_eq := by
    rw [h'.bytesInFlight_eq, h.bytesInFlight_eq, seqLength_append, Nat.add_assoc]
  freeSpace_eq := by rw [h'.freeSpace_eq, h.freeSpace_eq, seqLength_append, sub_ofNat_add]
  timerRunning_eq := by
    rw [h'.timerRunning_eq, h.timerRunning_eq]
    cases new <;> cases new' <;> simp
  contiguous := by
    rw [contiguous_append, ← h.nextSeqno_eq, ← h.isn_eq]
    exact ⟨h.isn_eq ▸ h.contiguous, h'.contiguous⟩
  plain := fun seg hseg => (List.mem_append.mp hseg).elim (h.plain seg) (h'.plain seg)
  payload_le := fun seg hseg =>
    (List.mem_append.mp hseg).elim (h.payload_le seg) (h'.payload_le seg)
  wellFormed := h'.wellFormed
  buffer_eq := by rw [h.buffer_eq, h'.buffer_eq, payloads_append, List.append_assoc]
  nread_eq := by
    rw [h'.nread_eq, h.nread_eq, payloads_append, List.length_append, Nat.add_assoc]
  nwritten_eq := h'.nwritten_eq.trans h.nwritten_eq
  capacity_eq := h'.capacity_eq.trans h.capacity_eq
  inputEnded_eq := h'.inputEnded_eq.trans h.inputEnded_eq
  error_eq := h'.error_eq.trans h.error_eq
  finSent_eq := by rw [h'.finSent_eq, h.finSent_eq, List.any_append, Bool.or_assoc]
  finLast := finLast_append hfin h'.finLast
  fin_eof := by
    intro seg hseg hf
    rcases List.mem_append.mp hseg with hm | hm
    · exact absurd hf (by simp [hfin seg hm])
    · exact h'.fin_eof seg hm hf

/-! ## One segment -/

/-- **Sending one segment** with the next `n` bytes of the stream; the sender notes a FIN. -/
theorem emits_send (hwf : s.stream.WellFormed) (hsyn : s.synSent = true) (n : ℕ) (syn fin : Bool)
    (hlen : 0 < TCPSegment.lengthInSequenceSpace
      { header := { syn := syn, fin := fin }, payload := s.stream.peekOutput n })
    (hmax : (s.stream.peekOutput n).length ≤ TCPConfig.maxPayloadSize)
    (hfin : fin = true → (s.stream.popOutput n).eof = true) :
    Emits s
      ({ s with stream := s.stream.popOutput n, finSent := s.finSent || fin }.sendSegment
        { header := { syn := syn, fin := fin }, payload := s.stream.peekOutput n })
      [s.numbered { header := { syn := syn, fin := fin }, payload := s.stream.peekOutput n }] where
  isn_eq := rfl
  synSent_eq := rfl
  windowSize_eq := rfl
  retransmissions_eq := rfl
  timeout_eq := rfl
  rto_eq := rfl
  segmentsOut_eq := rfl
  outstanding_eq := rfl
  nextSeqno_eq := rfl
  bytesInFlight_eq := rfl
  freeSpace_eq := if_pos hsyn
  timerRunning_eq := by simp [sendSegment]
  contiguous := ⟨rfl, hlen, trivial⟩
  plain := by simp [TCPSegment.Plain, numbered]
  payload_le := by simpa [numbered] using hmax
  wellFormed := hwf.popOutput n
  buffer_eq := by
    simp only [payloads_cons, payloads_nil, List.append_nil]
    exact (List.take_append_drop _ _).symm
  nread_eq := by
    have hsize := hwf.size_eq
    simp only [payloads_cons, payloads_nil, List.append_nil, sendSegment, numbered,
      ByteStream.popOutput_nread, ByteStream.peekOutput, List.length_take]
    omega
  nwritten_eq := rfl
  capacity_eq := rfl
  inputEnded_eq := rfl
  error_eq := rfl
  finSent_eq := by simp [sendSegment, numbered]
  finLast := ⟨fun _ => rfl, trivial⟩
  fin_eof := by
    intro seg hseg hf
    obtain rfl := List.mem_singleton.mp hseg
    exact hfin hf

/-- The first `fill_window` sends the SYN. -/
theorem fillWindow_syn (hwf : s.stream.WellFormed) (hsyn : s.synSent = false) :
    Emits { s with synSent := true } s.fillWindow
      [{ header := { seqno := wrap s.nextSeqno s.isn, syn := true } }] := by
  have h := emits_send (s := { s with synSent := true }) hwf rfl 0 true false
    (by simp [TCPSegment.lengthInSequenceSpace])
    (by simp [ByteStream.peekOutput]) (fun hf => by cases hf)
  have hs : s.fillWindow = { s with synSent := true }.sendSegment { header := { syn := true } } :=
    by simp [fillWindow, hsyn]
  rw [hs]
  simpa [numbered, ByteStream.peekOutput, ByteStream.popOutput] using h

/-! ## The loop -/

/-- There is something to send: bytes, or the end of the stream. -/
def HasWork (s : TCPSender) : Prop :=
  0 < s.stream.size ∨ s.stream.eof = true

section Loop

variable (hwf : s.stream.WellFormed) (hsyn : s.synSent = true)

/-- The number of payload bytes of a round. -/
def payloadSize (s : TCPSender) : ℕ :=
  min s.stream.bufferSize (min s.receiverFreeSpace.toNat TCPConfig.maxPayloadSize)

/-- The segment of a round. -/
def roundSegment (s : TCPSender) : TCPSegment :=
  s.numbered
    { header :=
        { fin := (s.stream.popOutput s.payloadSize).eof &&
            decide (s.payloadSize < s.receiverFreeSpace.toNat) }
      payload := s.stream.peekOutput s.payloadSize }

include hwf

theorem length_peekOutput_payloadSize :
    (s.stream.peekOutput s.payloadSize).length = s.payloadSize := by
  have hsize := hwf.size_eq
  unfold ByteStream.peekOutput payloadSize ByteStream.bufferSize
  rw [List.length_take]
  omega

theorem roundSegment_length :
    s.roundSegment.lengthInSequenceSpace = s.payloadSize +
      (if (s.stream.popOutput s.payloadSize).eof &&
        decide (s.payloadSize < s.receiverFreeSpace.toNat) then 1 else 0) := by
  simp only [roundSegment, numbered, TCPSegment.lengthInSequenceSpace,
    length_peekOutput_payloadSize hwf, Bool.false_eq_true, if_false, Nat.add_zero]
  rfl

/-- A round stays within the free space. -/
theorem roundSegment_length_le :
    s.roundSegment.lengthInSequenceSpace ≤ s.receiverFreeSpace.toNat := by
  rw [roundSegment_length hwf]
  have hle : s.payloadSize ≤ s.receiverFreeSpace.toNat := by
    unfold payloadSize
    omega
  split_ifs with hfin
  · -- FIN is set only if a number is left for it
    simp only [Bool.and_eq_true, decide_eq_true_eq] at hfin
    omega
  · exact hle

/-- A round with free space and work occupies at least one sequence number. -/
theorem roundSegment_length_pos (hfree : s.receiverFreeSpace ≠ 0) (hwork : s.HasWork) :
    0 < s.roundSegment.lengthInSequenceSpace := by
  have hpos := ne_zero_iff_toNat_pos.mp hfree
  rw [roundSegment_length hwf]
  rcases hwork with hsize | heof
  · -- a byte goes
    have hps : 0 < s.payloadSize := by
      unfold payloadSize ByteStream.bufferSize TCPConfig.maxPayloadSize
      omega
    omega
  · -- no byte is left, and there is room for the FIN
    obtain ⟨hended, hsize⟩ := ByteStream.eof_iff.mp heof
    have hps : s.payloadSize = 0 := by
      unfold payloadSize ByteStream.bufferSize
      omega
    have hpop : (s.stream.popOutput s.payloadSize).eof = true :=
      ByteStream.eof_iff.mpr ⟨hended, by simp [hsize]⟩
    rw [hpop, hps]
    simp [hpos]

include hsyn

/-- **One round of the loop.** -/
theorem emits_fillRound (hfree : s.receiverFreeSpace ≠ 0) (hwork : s.HasWork) :
    Emits s s.fillRound [s.roundSegment] := by
  have hpos := roundSegment_length_pos hwf hfree hwork
  have hlen := length_peekOutput_payloadSize hwf
  refine emits_send hwf hsyn s.payloadSize false _ hpos ?_ ?_
  · rw [hlen]
    unfold payloadSize
    omega
  · intro hfin
    simp only [Bool.and_eq_true] at hfin
    exact hfin.1

/-- A round uses up what its segment occupies. -/
theorem fillRound_freeSpace (hfree : s.receiverFreeSpace ≠ 0) (hwork : s.HasWork) :
    s.fillRound.receiverFreeSpace.toNat =
      s.receiverFreeSpace.toNat - s.roundSegment.lengthInSequenceSpace := by
  have hseq : seqLength [s.roundSegment] = s.roundSegment.lengthInSequenceSpace := by simp
  rw [(emits_fillRound hwf hsyn hfree hwork).freeSpace_eq, hseq,
    toNat_sub_ofNat (roundSegment_length_le hwf)]

/-- **The loop**: with enough rounds it sends at least one segment, stays within the free space, and
sends no SYN. -/
theorem emits_fillLoop {n : ℕ} (hn : s.receiverFreeSpace.toNat ≤ n)
    (hfree : s.receiverFreeSpace ≠ 0) (hwork : s.HasWork) :
    ∃ new, new ≠ [] ∧ Emits s (s.fillLoop n) new ∧
      seqLength new ≤ s.receiverFreeSpace.toNat ∧ ∀ seg ∈ new, seg.header.syn = false := by
  -- induction on the rounds left; each round uses up at least one number of the free space
  induction n generalizing s with
  | zero =>
    have := ne_zero_iff_toNat_pos.mp hfree
    omega
  | succ n ih =>
    have hround := emits_fillRound hwf hsyn hfree hwork
    have hlen := roundSegment_length_le hwf
    have hpos := roundSegment_length_pos hwf hfree hwork
    have hseq : seqLength [s.roundSegment] = s.roundSegment.lengthInSequenceSpace := by simp
    have hlast : ∃ new, new ≠ [] ∧ Emits s s.fillRound new ∧
        seqLength new ≤ s.receiverFreeSpace.toNat ∧ ∀ seg ∈ new, seg.header.syn = false :=
      ⟨[s.roundSegment], List.cons_ne_nil _ _, hround, hseq.trans_le hlen,
        by simp [roundSegment, numbered]⟩
    have hfree' := fillRound_freeSpace hwf hsyn hfree hwork
    unfold fillLoop
    rw [if_pos hfree]
    dsimp only
    by_cases hdone : s.fillRound.stream.bufferEmpty = true
    · -- the stream is exhausted: the loop is left after this round
      rw [if_pos hdone]
      exact hlast
    · rw [if_neg hdone]
      have hsize : 0 < s.fillRound.stream.size := by
        simpa [ByteStream.bufferEmpty, Nat.pos_iff_ne_zero] using hdone
      -- bytes are left, so this round carried no FIN
      have hfin : ∀ seg ∈ [s.roundSegment], seg.header.fin = false := by
        intro seg hseg
        by_contra hf
        have heof := hround.fin_eof seg hseg (by simpa using hf)
        have := (ByteStream.eof_iff.mp heof).2
        omega
      by_cases hzero : s.fillRound.receiverFreeSpace = 0
      · -- the free space is used up and the loop stops before the next round
        have hstop : s.fillRound.fillLoop n = s.fillRound := by
          cases n with
          | zero => rfl
          | succ n => simp [fillLoop, hzero]
        rw [hstop]
        exact hlast
      · -- the further rounds, by induction
        obtain ⟨new, -, hloop, hle, hnosyn⟩ := ih hround.wellFormed
          (hround.synSent_eq.trans hsyn) (by omega) hzero (Or.inl hsize)
        refine ⟨s.roundSegment :: new, List.cons_ne_nil _ _, hround.trans hloop hfin, ?_, ?_⟩
        · rw [seqLength_cons]
          omega
        · intro seg hseg
          rcases List.mem_cons.mp hseg with rfl | hm
          · rfl
          · exact hnosyn seg hm

/-- **The probe** of a zero window sends exactly one sequence number. -/
theorem emits_probe (hwork : s.HasWork) :
    ∃ new, new ≠ [] ∧ Emits s s.probe new ∧ seqLength new = 1 ∧
      ∀ seg ∈ new, seg.header.syn = false := by
  have hsize := hwf.size_eq
  unfold probe
  by_cases heof : s.stream.eof = true
  · -- the stream has ended: FIN alone
    rw [if_pos heof]
    have hpop : s.stream.popOutput 0 = s.stream := by simp [ByteStream.popOutput]
    have h := emits_send hwf hsyn 0 false true
      (by simp [TCPSegment.lengthInSequenceSpace]) (by simp [ByteStream.peekOutput])
      (fun _ => by rw [hpop]; exact heof)
    refine ⟨[s.numbered { header := { fin := true } }], List.cons_ne_nil _ _, ?_, ?_, ?_⟩
    · simpa [hpop, ByteStream.peekOutput] using h
    · simp [numbered, TCPSegment.lengthInSequenceSpace]
    · simp [numbered]
  · -- otherwise there is a byte to probe with
    rw [if_neg heof]
    have hne : 0 < s.stream.size := hwork.resolve_right heof
    rw [if_pos (by simp [ByteStream.bufferEmpty]; omega)]
    have hlen : (s.stream.peekOutput 1).length = 1 := by
      rw [ByteStream.peekOutput, List.length_take]
      omega
    have h := emits_send hwf hsyn 1 false false
      (by simp [TCPSegment.lengthInSequenceSpace, hlen]) (by rw [hlen]; decide)
      (fun hf => by cases hf)
    refine ⟨[s.numbered { payload := s.stream.peekOutput 1 }], List.cons_ne_nil _ _, ?_, ?_, ?_⟩
    · simpa [ByteStream.read] using h
    · simp [numbered, TCPSegment.lengthInSequenceSpace, hlen]
    · simp [numbered]

end Loop

/-! ## `fill_window` after the SYN -/

theorem fillWindow_of_idle (hsyn : s.synSent = true) (hidle : s.idle = true) :
    s.fillWindow = s := by
  unfold fillWindow
  unfold idle at hidle
  simp only [hsyn, Bool.not_true, Bool.false_eq_true, if_false]
  split_ifs with h1 h2 h3 h4 h5
  · rfl
  · rfl
  · rfl
  · -- an open window without room: the loop ends before its first round
    have hfree : s.receiverFreeSpace = 0 := by simpa [h1, h2, h3, h4] using hidle
    simp [hfree, fillLoop]
  · simp [h1, h2, h3, h4, h5] at hidle
  · rfl

theorem finSent_of_not_idle (hidle : s.idle = false) : s.finSent = false := by
  simp only [idle, Bool.or_eq_false_iff] at hidle
  exact hidle.1.2

/-- **A call that is not idle** sends at least one segment, within the free space or, into a zero
window, exactly one sequence number. -/
theorem fillWindow_emits (hwf : s.stream.WellFormed) (hsyn : s.synSent = true)
    (hidle : s.idle = false) :
    ∃ new, new ≠ [] ∧ Emits s s.fillWindow new ∧
      (s.receiverWindowSize ≠ 0 → seqLength new ≤ s.receiverFreeSpace.toNat) ∧
      (s.receiverWindowSize = 0 → seqLength new = 1 ∧ s.receiverFreeSpace = 0) ∧
      ∀ seg ∈ new, seg.header.syn = false := by
  unfold idle at hidle
  simp only [Bool.or_eq_false_iff] at hidle
  obtain ⟨⟨⟨hso, hwork⟩, hfin⟩, hwin⟩ := hidle
  have hwork' : s.HasWork := by
    by_cases hsize : s.stream.size = 0
    · exact Or.inr (by simpa [ByteStream.bufferSize, hsize] using hwork)
    · exact Or.inl (by omega)
  unfold fillWindow
  simp only [hsyn, Bool.not_true, hso, hwork, hfin, Bool.false_eq_true, if_false]
  by_cases hw : s.receiverWindowSize = 0
  · -- a closed window is probed only with no free space recorded
    have hfree : s.receiverFreeSpace = 0 := by simpa [hw] using hwin
    rw [if_neg (by simpa using hw), if_pos hfree]
    obtain ⟨new, hne, hemits, hlen, hnosyn⟩ := emits_probe hwf hsyn hwork'
    exact ⟨new, hne, hemits, fun h => absurd hw h, fun _ => ⟨hlen, hfree⟩, hnosyn⟩
  · have hfree : s.receiverFreeSpace ≠ 0 := by simpa [hw] using hwin
    rw [if_pos (by simpa using hw)]
    obtain ⟨new, hne, hemits, hlen, hnosyn⟩ := emits_fillLoop hwf hsyn le_rfl hfree hwork'
    exact ⟨new, hne, hemits, fun _ => hlen, fun h => absurd h hw, hnosyn⟩

end TCPSender

end Sponge
