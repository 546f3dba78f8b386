import Mathlib.Tactic
import Sponge.TCPSender.Progress
import Sponge.TCPSender.Room

/-!
# What the sender queues belongs to its stream

Every segment that a sender has queued, for the network or for retransmission, is a segment of the
stream it was given: a part of the accepted bytes at its place, a SYN at the beginning, a FIN at the
end. This is what a peer may rely on, however late or often a segment reaches it.

## Main definitions

* `TCPSender.Extends s s'`: the sender has moved on and keeps what it has promised
* `TCPSender.Sent S s seg`: a segment of the stream `S` that the sender may have sent
* `TCPSender.Carries S s`: the sender carries the stream `S`
* `TCPSender.Unstamped`: nothing that is queued has an acknowledgment on it

## Main results

* `segmentOf_of_contiguous`: contiguous segments with the bytes of a stream are segments of it
* `TCPSender.Carries.fillWindow`, `TCPSender.Carries.ackReceived`, `TCPSender.Carries.tick`,
  `TCPSender.Carries.write`: the calls keep it
* `TCPSender.Bookkeeping.step_extends`, `TCPSender.Unstamped.step`: every call moves the sender on,
  and stamps nothing
-/

namespace Sponge

theorem TCPSegment.Plain.unstamped {seg : TCPSegment} (h : seg.Plain) :
    seg.header.ack = false ∧ seg.header.rst = false := by
  unfold TCPSegment.Plain at h
  rw [h]
  exact ⟨rfl, rfl⟩

/-- **Contiguous segments of a stream.** Segments without SYN that start inside the stream, carry
its next bytes and have FIN at most at its end are segments of it. -/
theorem segmentOf_of_contiguous {S rest : List UInt8} {isn : WrappingInt32} {segs : List TCPSegment}
    {a : ℕ} (hcont : Contiguous isn a segs) (ha : 0 < a) (hle : a - 1 ≤ S.length)
    (hbytes : S.drop (a - 1) = payloads segs ++ rest) (hlast : FinLast segs)
    (hfin : ∀ seg ∈ segs, seg.header.fin = true → rest = [])
    (hsyn : ∀ seg ∈ segs, seg.header.syn = false) :
    ∀ seg ∈ segs, ∃ b, b ≤ a + seqLength segs ∧ SegmentOf S isn b seg := by
  -- induction on the segments; the stream is read off from the front
  induction segs generalizing a with
  | nil => simp
  | cons seg segs ih =>
    obtain ⟨hseqno, hpos, hcont⟩ := hcont
    obtain ⟨hsynSeg, hsynSegs⟩ := List.forall_mem_cons.mp hsyn
    obtain ⟨hfinSeg, hfinSegs⟩ := List.forall_mem_cons.mp hfin
    rw [payloads_cons, List.append_assoc] at hbytes
    have hlen := congrArg List.length hbytes
    simp only [List.length_drop, List.length_append] at hlen
    have hseg : SegmentOf S isn a seg := by
      refine ⟨hseqno, by simp [hsynSeg]; omega, by rw [hbytes, List.take_left], fun hf => ?_⟩
      have hrest := hfinSeg hf
      have hnil := hlast.1 hf
      rw [hrest, hnil] at hlen
      simp only [payloads_nil, List.length_nil] at hlen
      omega
    intro seg' hmem
    rcases List.mem_cons.mp hmem with rfl | hmem
    · exact ⟨a, Nat.le_add_right _ _, hseg⟩
    · -- a segment that is not the last has no FIN, so its length is that of its payload
      have hnofin : seg.header.fin = false := by
        by_contra hf
        have := hlast.1 (by simpa using hf)
        rw [this] at hmem
        cases hmem
      have hlenSeg : seg.lengthInSequenceSpace = seg.payload.length := by
        simp [TCPSegment.lengthInSequenceSpace, hsynSeg, hnofin]
      obtain ⟨b, hb, hsegb⟩ := ih hcont (by omega) (by omega)
        (by
          have hindex : a + seg.lengthInSequenceSpace - 1 = a - 1 + seg.payload.length := by omega
          rw [hindex, ← List.drop_drop, hbytes, List.drop_left])
        hlast.2 hfinSegs hsynSegs seg' hmem
      exact ⟨b, by rw [seqLength_cons]; omega, hsegb⟩

namespace TCPSender

variable {s s' s'' : TCPSender} {S T : List UInt8} {seg : TCPSegment} {new : List TCPSegment}

/-- The sender has moved on from `s` to `s'`. -/
structure Extends (s s' : TCPSender) : Prop where
  isn_eq : s'.isn = s.isn
  nextSeqno_le : s.nextSeqno ≤ s'.nextSeqno
  finSent : s.finSent = true → s'.finSent = true
  error : s.stream.error = true → s'.stream.error = true

theorem Extends.refl (s : TCPSender) : Extends s s :=
  ⟨rfl, le_refl _, fun h => h, fun h => h⟩

theorem Extends.trans (h : Extends s s') (h' : Extends s' s'') : Extends s s'' :=
  ⟨h'.isn_eq.trans h.isn_eq, h.nextSeqno_le.trans h'.nextSeqno_le,
    fun hf => h'.finSent (h.finSent hf), fun he => h'.error (h.error he)⟩

theorem Keeps.toExtends (h : Keeps s s') (herror : s.stream.error = true → s'.stream.error = true) :
    Extends s s' :=
  ⟨h.isn_eq, h.nextSeqno_eq ▸ le_refl _, fun hf => h.finSent_eq.trans hf, herror⟩

theorem Emits.toExtends (h : Emits s s' new) : Extends s s' :=
  ⟨h.isn_eq, h.nextSeqno_eq ▸ Nat.le_add_right _ _,
    fun hf => by rw [h.finSent_eq, hf, Bool.true_or], h.error_eq.trans⟩

/-- `seg` is a segment of the stream `S` that starts among the sequence numbers used so far; it has
FIN only if FIN has been sent. -/
def Sent (S : List UInt8) (s : TCPSender) (seg : TCPSegment) : Prop :=
  ∃ a, a ≤ s.nextSeqno ∧ SegmentOf S s.isn a seg ∧
    (seg.header.fin = true → s.finSent = true)

theorem Sent.mono (h : Sent S s seg) (he : Extends s s') : Sent S s' seg := by
  obtain ⟨a, ha, hseg, hfin⟩ := h
  exact ⟨a, ha.trans he.nextSeqno_le, he.isn_eq ▸ hseg, fun hf => he.finSent (hfin hf)⟩

/-- Before FIN is sent the stream may grow. -/
theorem Sent.append (h : Sent S s seg) (hfin : s.finSent = false) : Sent (S ++ T) s seg := by
  obtain ⟨a, ha, hseg, hfin'⟩ := h
  refine ⟨a, ha, hseg.append ?_, hfin'⟩
  by_contra hf
  rw [hfin' (by simpa using hf)] at hfin
  cases hfin

/-- **The sender carries the stream `S`**: what it has not sent is the rest of `S`, and everything
it has queued is a segment of `S`, without acknowledgment and without RST. -/
structure Carries (S : List UInt8) (s : TCPSender) : Prop where
  bookkeeping : s.Bookkeeping
  finished : s.Finished
  buffer_eq : s.stream.buffer = S.drop s.stream.nread
  nread_le : s.stream.nread ≤ S.length
  unread : s.synSent = false → s.stream.nread = 0
  nextSeqno_eq : s.synSent = true →
    s.nextSeqno = 1 + s.stream.nread + (if s.finSent then 1 else 0)
  outstanding : ∀ seg ∈ s.segmentsOutstanding, Sent S s seg
  queued : ∀ seg ∈ s.segmentsOut, Sent S s seg
  plain : ∀ seg ∈ s.segmentsOutstanding ++ s.segmentsOut,
    seg.header.ack = false ∧ seg.header.rst = false

theorem carries_new (capacity : ℕ) (retxTimeout : UInt16) (isn : WrappingInt32) :
    (TCPSender.new capacity retxTimeout isn).Carries [] where
  bookkeeping := bookkeeping_new capacity retxTimeout isn
  finished := fun h => by cases h
  buffer_eq := rfl
  nread_le := le_refl _
  unread := fun _ => rfl
  nextSeqno_eq := fun h => by cases h
  outstanding := by simp [TCPSender.new]
  queued := by simp [TCPSender.new]
  plain := by simp [TCPSender.new]

/-- The next sequence number is at most the one after the FIN of the stream. -/
theorem Carries.nextSeqno_le (h : s.Carries S) : s.nextSeqno ≤ S.length + 2 := by
  have hread := h.nread_le
  cases hsyn : s.synSent with
  | false =>
    have := (h.bookkeeping.unsent hsyn).1
    omega
  | true =>
    have := h.nextSeqno_eq hsyn
    split_ifs at this <;> omega

/-- **New segments of the stream.** -/
theorem Carries.emits (h : s.Carries S) (hsyn : s.synSent = true) (hfin : s.finSent = false)
    (he : Emits s s' new) (hs' : s'.Bookkeeping) (hfin' : s'.Finished)
    (hno : ∀ seg ∈ new, seg.header.syn = false) : s'.Carries S := by
  have hnext : s.nextSeqno = 1 + s.stream.nread := by simpa [hfin] using h.nextSeqno_eq hsyn
  have hread := h.nread_le
  have hbytes : S.drop s.stream.nread = payloads new ++ s'.stream.buffer :=
    h.buffer_eq.symm.trans he.buffer_eq
  have hlen := congrArg List.length hbytes
  simp only [List.length_drop, List.length_append] at hlen
  have hindex : s.nextSeqno - 1 = s.stream.nread := by omega
  -- the new segments start where the sent part of the stream ends
  have hnew : ∀ seg ∈ new, Sent S s' seg := by
    intro seg hseg
    obtain ⟨b, hb, hsegb⟩ := segmentOf_of_contiguous (S := S) he.contiguous (by omega) (by omega)
      (by rw [hindex]; exact hbytes) he.finLast
      (fun seg hseg hf => he.wellFormed.buffer_eq_nil_iff.mpr
        (ByteStream.eof_iff.mp (he.fin_eof seg hseg hf)).2)
      hno seg hseg
    refine ⟨b, he.nextSeqno_eq ▸ hb, he.isn_eq ▸ hsegb, fun hf => ?_⟩
    rw [he.finSent_eq, hfin, Bool.false_or]
    exact List.any_eq_true.mpr ⟨seg, hseg, hf⟩
  refine ⟨hs', hfin', ?_, ?_, ?_, ?_, ?_, ?_, ?_⟩
  · rw [he.nread_eq, ← List.drop_drop, hbytes, List.drop_left]
  · rw [he.nread_eq]
    omega
  · rw [he.synSent_eq, hsyn]
    exact fun hf => by cases hf
  · intro _
    rw [he.nextSeqno_eq, seqLength_eq_payloads he.finLast hno, he.nread_eq, he.finSent_eq, hfin,
      Bool.false_or]
    omega
  · rw [he.outstanding_eq]
    intro seg hseg
    exact (List.mem_append.mp hseg).elim (fun hm => (h.outstanding seg hm).mono he.toExtends)
      (hnew seg)
  · rw [he.segmentsOut_eq]
    intro seg hseg
    exact (List.mem_append.mp hseg).elim (fun hm => (h.queued seg hm).mono he.toExtends)
      (hnew seg)
  · rw [he.outstanding_eq, he.segmentsOut_eq]
    intro seg hseg
    simp only [List.mem_append] at hseg
    rcases hseg with (hm | hm) | (hm | hm)
    · exact h.plain seg (List.mem_append_left _ hm)
    · exact (he.plain seg hm).unstamped
    · exact h.plain seg (List.mem_append_right _ hm)
    · exact (he.plain seg hm).unstamped

/-- The SYN is a segment of every stream. -/
theorem segmentOf_syn (S : List UInt8) (isn : WrappingInt32) :
    SegmentOf S isn 0 { header := { seqno := wrap 0 isn, syn := true } } :=
  ⟨rfl, by simp, rfl, fun hf => by cases hf⟩

theorem Bookkeeping.fillWindow_extends (h : s.Bookkeeping) : Extends s s.fillWindow := by
  obtain ⟨new, he⟩ := h.exists_emits
  have hext := he.toExtends
  exact ⟨hext.isn_eq, hext.nextSeqno_le, hext.finSent, hext.error⟩

theorem Carries.fillWindow (h : s.Carries S) : s.fillWindow.Carries S := by
  have hs' := h.bookkeeping.fillWindow
  have hfin' := h.bookkeeping.finished_fillWindow h.finished
  have hext := h.bookkeeping.fillWindow_extends
  rcases h.bookkeeping.fillWindow_cases with
    ⟨hunsent, he⟩ | ⟨-, -, heq⟩ | ⟨hsent, hidle, new, -, he, -, -, hno⟩
  · -- the SYN, which takes nothing from the stream
    obtain ⟨hzero, hunfin⟩ := h.bookkeeping.unsent hunsent
    have hunread := h.unread hunsent
    have hnread : s.fillWindow.stream.nread = s.stream.nread := he.nread_eq
    have hbuffer : s.fillWindow.stream.buffer = s.stream.buffer := he.buffer_eq.symm
    have hnew : Sent S s.fillWindow { header := { seqno := wrap 0 s.isn, syn := true } } :=
      ⟨0, Nat.zero_le _, he.isn_eq ▸ segmentOf_syn S s.isn, fun hf => by cases hf⟩
    refine ⟨hs', hfin', ?_, ?_, ?_, ?_, ?_, ?_, ?_⟩
    · rw [hbuffer, hnread]
      exact h.buffer_eq
    · rw [hnread]
      exact h.nread_le
    · rw [he.synSent_eq]
      exact fun hf => by cases hf
    · intro _
      rw [he.nextSeqno_eq, hnread, hunread, he.finSent_eq]
      simp [hzero, hunfin, TCPSegment.lengthInSequenceSpace]
    · rw [he.outstanding_eq]
      intro seg hseg
      rcases List.mem_append.mp hseg with hm | hm
      · exact (h.outstanding seg hm).mono hext
      · rw [List.mem_singleton.mp hm]
        exact hnew
    · rw [he.segmentsOut_eq]
      intro seg hseg
      rcases List.mem_append.mp hseg with hm | hm
      · exact (h.queued seg hm).mono hext
      · rw [List.mem_singleton.mp hm]
        exact hnew
    · rw [he.outstanding_eq, he.segmentsOut_eq]
      intro seg hseg
      simp only [List.mem_append, List.mem_singleton] at hseg
      rcases hseg with (hm | hm) | (hm | hm)
      · exact h.plain seg (List.mem_append_left _ hm)
      · exact hm ▸ ⟨rfl, rfl⟩
      · exact h.plain seg (List.mem_append_right _ hm)
      · exact hm ▸ ⟨rfl, rfl⟩
  · rw [heq]
    exact h
  · exact h.emits hsent (finSent_of_not_idle hidle) he hs' hfin' hno

theorem acknowledged_extends (s : TCPSender) (a : ℕ) (w : UInt16) :
    Extends s (s.acknowledged a w) := by
  rw [acknowledged_eq]
  exact ⟨rfl, le_refl _, fun h => h, fun h => h⟩

theorem Carries.acknowledged (h : s.Carries S) (a : ℕ) (w : UInt16) :
    (s.acknowledged a w).Carries S := by
  have hb := h.bookkeeping.acknowledged a w
  rw [acknowledged_eq] at hb ⊢
  refine ⟨hb, h.finished, h.buffer_eq, h.nread_le, h.unread, h.nextSeqno_eq,
    fun seg hseg => h.outstanding seg (mem_of_mem_unacked hseg), h.queued, fun seg hseg => ?_⟩
  rcases List.mem_append.mp hseg with hm | hm
  · exact h.plain seg (List.mem_append_left _ (mem_of_mem_unacked hm))
  · exact h.plain seg (List.mem_append_right _ hm)

theorem Carries.ackReceived (h : s.Carries S) (stale : TCPSegment) (ackno : WrappingInt32)
    (w : UInt16) :
    (s.ackReceived stale ackno w).Carries S ∧ Extends s (s.ackReceived stale ackno w) := by
  rcases s.ackReceived_cases stale ackno w with heq | ⟨-, heq⟩
  · rw [heq]
    exact ⟨h, Extends.refl s⟩
  · rw [heq]
    have hack := h.acknowledged (unwrap ackno s.isn s.nextSeqno) w
    exact ⟨hack.fillWindow,
      (s.acknowledged_extends _ w).trans hack.bookkeeping.fillWindow_extends⟩

/-- A queued segment as a segment of the stream that nobody has stamped. -/
theorem Carries.queued_unstamped (h : s.Carries S) (hseg : seg ∈ s.segmentsOut) :
    Sent S s seg ∧ seg.header.ack = false ∧ seg.header.rst = false :=
  ⟨h.queued seg hseg, h.plain seg (List.mem_append_right _ hseg)⟩

/-- Calls that send nothing new: the queue for the network holds segments of the stream. -/
theorem Carries.keeps (h : s.Carries S) (hk : Keeps s s') (hwf : s'.stream.WellFormed)
    (hbuffer : s'.stream.buffer = s.stream.buffer) (hnread : s'.stream.nread = s.stream.nread)
    (herror : s.stream.error = true → s'.stream.error = true) (hfin : s'.Finished)
    (hout : ∀ seg ∈ s'.segmentsOut,
      Sent S s seg ∧ seg.header.ack = false ∧ seg.header.rst = false) :
    s'.Carries S where
  bookkeeping := h.bookkeeping.keeps hk hwf
  finished := hfin
  buffer_eq := by rw [hbuffer, hnread, h.buffer_eq]
  nread_le := hnread ▸ h.nread_le
  unread := by
    rw [hk.synSent_eq, hnread]
    exact h.unread
  nextSeqno_eq := by
    rw [hk.synSent_eq, hk.nextSeqno_eq, hnread, hk.finSent_eq]
    exact h.nextSeqno_eq
  outstanding := by
    rw [hk.outstanding_eq]
    exact fun seg hseg => (h.outstanding seg hseg).mono (hk.toExtends herror)
  queued := fun seg hseg => (hout seg hseg).1.mono (hk.toExtends herror)
  plain := by
    rw [hk.outstanding_eq]
    intro seg hseg
    rcases List.mem_append.mp hseg with hm | hm
    · exact h.plain seg (List.mem_append_left _ hm)
    · exact (hout seg hm).2

theorem Carries.setSegmentsOut (h : s.Carries S) {segs : List TCPSegment}
    (hout : ∀ seg ∈ segs, Sent S s seg ∧ seg.header.ack = false ∧ seg.header.rst = false) :
    Carries S { s with segmentsOut := segs } :=
  h.keeps (s.setSegmentsOut_keeps segs) h.bookkeeping.wellFormed rfl rfl (fun he => he) h.finished
    hout

theorem Carries.setError (h : s.Carries S) : (s.mapStreamIn ByteStream.setError).Carries S :=
  h.keeps (s.mapStreamIn_keeps _) h.bookkeeping.wellFormed.setError rfl rfl (fun _ => rfl)
    h.finished fun _ => h.queued_unstamped

theorem Carries.endInput (h : s.Carries S) : (s.mapStreamIn ByteStream.endInput).Carries S :=
  h.keeps (s.mapStreamIn_keeps _) h.bookkeeping.wellFormed.endInput rfl rfl (fun he => he)
    (fun hf => ByteStream.eof_iff.mpr ⟨rfl, (ByteStream.eof_iff.mp (h.finished hf)).2⟩)
    fun _ => h.queued_unstamped

/-- A retransmission queues a segment of the stream again. -/
theorem Carries.tick (h : s.Carries S) (stale : TCPSegment) (ms : ℕ) :
    (s.tick stale ms).Carries S := by
  obtain ⟨hk, hstream⟩ := s.tick_keeps stale ms
  refine h.keeps hk (hstream ▸ h.bookkeeping.wellFormed) (by rw [hstream]) (by rw [hstream])
    (by rw [hstream]; exact fun he => he) ?_ ?_
  · unfold Finished
    rw [hk.finSent_eq, hstream]
    exact h.finished
  · intro seg hseg
    rcases h.bookkeeping.mem_tick_segmentsOut hseg with hm | hm
    · exact h.queued_unstamped hm
    · exact ⟨h.outstanding seg hm, h.plain seg (List.mem_append_left _ hm)⟩

/-- **A write** before the end of the input extends the stream. -/
theorem Carries.write (h : s.Carries S) (hopen : s.stream.inputEnded = false)
    (data : List UInt8) :
    (s.mapStreamIn fun stream => (stream.write data).1).Carries
      (S ++ data.take (s.stream.write data).2) := by
  have hunfin : s.finSent = false := by
    by_contra hf
    have := (ByteStream.eof_iff.mp (h.finished (by simpa using hf))).1
    rw [hopen] at this
    cases this
  refine ⟨h.bookkeeping.keeps (s.mapStreamIn_keeps fun stream => (stream.write data).1)
    (h.bookkeeping.wellFormed.write data), ?_, ?_, ?_, h.unread, h.nextSeqno_eq,
    fun seg hseg => (h.outstanding seg hseg).append hunfin,
    fun seg hseg => (h.queued seg hseg).append hunfin, h.plain⟩
  · intro hf
    rw [show s.finSent = true from hf] at hunfin
    cases hunfin
  · change (s.stream.write data).1.buffer = List.drop s.stream.nread _
    rw [List.drop_append_of_le_length h.nread_le, ByteStream.write_fst_buffer_eq, h.buffer_eq]
  · change s.stream.nread ≤ _
    rw [List.length_append]
    exact h.nread_le.trans (Nat.le_add_right _ _)

/-- After the SYN, an empty segment is a segment of the stream. -/
theorem Carries.sendEmptySegment (h : s.Carries S) (hsyn : s.synSent = true) :
    s.sendEmptySegment.Carries S := by
  have hpos := h.bookkeeping.started hsyn
  have hempty : Sent S s (s.numbered {}) :=
    ⟨s.nextSeqno, le_refl _, ⟨rfl, by simp [numbered]; omega, rfl, fun hf => by cases hf⟩,
      fun hf => by cases hf⟩
  refine h.setSegmentsOut fun seg hseg => ?_
  rcases List.mem_append.mp hseg with hm | hm
  · exact h.queued_unstamped hm
  · exact List.mem_singleton.mp hm ▸ ⟨hempty, rfl, rfl⟩

/-- **The sender moves on with every call.** -/
theorem Bookkeeping.step_extends (h : s.Bookkeeping) (op : SenderOp) : s.Extends (s.step op) := by
  cases op with
  | write data =>
    exact (s.mapStreamIn_keeps fun stream => (stream.write data).1).toExtends fun he => he
  | endInput => exact (s.mapStreamIn_keeps ByteStream.endInput).toExtends fun he => he
  | setError => exact (s.mapStreamIn_keeps ByteStream.setError).toExtends fun _ => rfl
  | fillWindow => exact h.fillWindow_extends
  | ackReceived stale ackno windowSize =>
    simp only [TCPSender.step]
    rcases s.ackReceived_cases stale ackno windowSize with heq | ⟨-, heq⟩
    · rw [heq]
      exact Extends.refl s
    · rw [heq]
      exact (s.acknowledged_extends _ windowSize).trans
        (h.acknowledged _ windowSize).fillWindow_extends
  | tick stale ms =>
    obtain ⟨hk, hstream⟩ := s.tick_keeps stale ms
    exact hk.toExtends (hstream ▸ fun he => he)
  | sendEmptySegment => exact (s.setSegmentsOut_keeps _).toExtends fun he => he
  | popSegment => exact (s.setSegmentsOut_keeps _).toExtends fun he => he

/-! ## Nothing is stamped -/

/-- Nothing in the two queues of the sender has an acknowledgment on it. -/
def Unstamped (s : TCPSender) : Prop :=
  ∀ seg ∈ s.segmentsOut ++ s.segmentsOutstanding, seg.header.ack = false

theorem Unstamped.fillWindow (h : s.Unstamped) (hb : s.Bookkeeping) : s.fillWindow.Unstamped := by
  obtain ⟨new, he⟩ := hb.exists_emits
  intro seg hseg
  rw [he.segmentsOut_eq, he.outstanding_eq] at hseg
  simp only [List.mem_append] at hseg
  rcases hseg with (hm | hm) | hm | hm
  · exact h seg (List.mem_append_left _ hm)
  · exact (he.plain seg hm).unstamped.1
  · exact h seg (List.mem_append_right _ hm)
  · exact (he.plain seg hm).unstamped.1

/-- **Every call leaves the segments unstamped.** -/
theorem Unstamped.step (h : s.Unstamped) (hb : s.Bookkeeping) (op : SenderOp) :
    (s.step op).Unstamped := by
  cases op with
  | fillWindow => exact h.fillWindow hb
  | ackReceived stale ackno windowSize =>
    simp only [TCPSender.step]
    rcases s.ackReceived_cases stale ackno windowSize with heq | ⟨-, heq⟩
    · rw [heq]
      exact h
    · rw [heq]
      refine Unstamped.fillWindow ?_ (hb.acknowledged _ windowSize)
      rw [acknowledged_eq]
      intro seg hseg
      rcases List.mem_append.mp hseg with hm | hm
      · exact h seg (List.mem_append_left _ hm)
      · exact h seg (List.mem_append_right _ (List.dropWhile_subset _ hm))
  | tick stale ms =>
    intro seg hseg
    rcases List.mem_append.mp hseg with hm | hm
    · exact h seg (List.mem_append.mpr (hb.mem_tick_segmentsOut hm))
    · rw [TCPSender.step, (s.tick_keeps stale ms).1.outstanding_eq] at hm
      exact h seg (List.mem_append_right _ hm)
  | sendEmptySegment =>
    intro seg hseg
    simp only [TCPSender.step, sendEmptySegment, List.mem_append, List.mem_singleton] at hseg
    rcases hseg with (hm | rfl) | hm
    · exact h seg (List.mem_append_left _ hm)
    · rfl
    · exact h seg (List.mem_append_right _ hm)
  | popSegment =>
    intro seg hseg
    rcases List.mem_append.mp hseg with hm | hm
    · exact h seg (List.mem_append_left _ (List.mem_of_mem_tail hm))
    · exact h seg (List.mem_append_right _ hm)
  | write data => exact h
  | endInput => exact h
  | setError => exact h

theorem Carries.unstamped (h : s.Carries S) : s.Unstamped := fun seg hseg =>
  (h.plain seg (List.mem_append.mpr (List.mem_append.mp hseg).symm)).1

end TCPSender

end Sponge
