import Mathlib.Tactic
import Sponge.TCPConnection.Closing

/-!
# When the outbound stream is final

`end_input_stream` marks the end of the outbound stream, and the FIN, the decision to linger and the
summary of the state rely on the stream being final from then on. Neither `TCPConnection::write` nor
`ByteStream::write` looks at the mark. What is proved here is what keeps the stream final: that no
write finds both a byte to write and room for it after `end_input_stream`.

## Main definitions

* `TCPConnection.LateWritesEmpty`: a call that adds nothing to an outbound stream that has ended

## Main results

* `TCPConnection.write_snd_eq_zero_iff`: when a write adds nothing
* `TCPConnection.step_write_of_snd_eq_zero`: such a write acts like a call without data
* `outbound_final_iff`: the outbound stream is final in the runs all of whose calls add nothing to
  it after its end, and in no others
-/

namespace Sponge

namespace TCPConnection

variable {c : TCPConnection} {op : ConnectionOp} {data : List UInt8} {S : List UInt8}

/-! ## A write -/

theorem write_snd (c : TCPConnection) (data : List UInt8) :
    (c.write data).2 = (c.sender.stream.write data).2 := by
  unfold write
  split_ifs with hempty
  · rw [ByteStream.write_snd, hempty, Nat.zero_min]
  · rfl

/-- **A write adds nothing** if it has no data or finds no room. -/
theorem write_snd_eq_zero_iff :
    (c.write data).2 = 0 ↔ data = [] ∨ c.sender.stream.remainingCapacity = 0 := by
  rw [write_snd, ByteStream.write_snd, Nat.min_eq_zero_iff, List.length_eq_zero_iff]

/-- A write that adds nothing does nothing, or only what `connect` does. -/
theorem step_write_of_snd_eq_zero (h : (c.write data).2 = 0) :
    c.step (.write data) = c ∨ c.step (.write data) = c.step .connect := by
  have hstream : (c.sender.stream.write data).1 = c.sender.stream :=
    ByteStream.write_fst_of_snd_eq_zero _ _ (write_snd c data ▸ h)
  simp only [step, write]
  split_ifs
  · exact Or.inl rfl
  · right
    simp only [TCPSender.mapStreamIn, mapSender, hstream, connect]

theorem bytesWritten_write (h : c.Sound) :
    (c.write data).1.sender.stream.bytesWritten =
      c.sender.stream.bytesWritten + (c.write data).2 := by
  rw [write_snd]
  unfold write
  split_ifs with hempty
  · rw [ByteStream.write_snd, hempty, Nat.zero_min, Nat.add_zero]
  · have hb := h.bookkeeping.step (.write data)
    obtain ⟨new, he⟩ := hb.exists_emits
    simp only [sendSenderSegments_sender, mapSender_sender]
    exact he.nwritten_eq

/-! ## Calls -/

/-- The call adds nothing to an outbound stream that has ended: it is no write, or it has no data,
or it finds no room. -/
def LateWritesEmpty (c : TCPConnection) : ConnectionOp → Prop
  | .write data =>
    c.sender.stream.inputEnded = true → data = [] ∨ c.sender.stream.remainingCapacity = 0
  | _ => True

/-- The outbound stream has been final so far: all that was sent is of one stream. -/
structure Final (c : TCPConnection) : Prop where
  sound : c.Sound
  transmits : ∃ S, c.Transmits S

theorem final_new (cfg : TCPConfig) (randomIsn : WrappingInt32) : (new cfg randomIsn).Final :=
  ⟨sound_new cfg randomIsn, [], transmits_new cfg randomIsn⟩

theorem Final.step (h : c.Final) (hop : c.LateWritesEmpty op) : (c.step op).Final := by
  obtain ⟨S, hS⟩ := h.transmits
  refine ⟨h.sound.step op, ?_⟩
  by_cases hopen : ∀ data, op = .write data → c.sender.stream.inputEnded = false
  · exact ⟨_, hS.step h.sound op hopen⟩
  · -- a write after the end, which adds nothing
    push Not at hopen
    obtain ⟨data, rfl, hended⟩ := hopen
    rcases step_write_of_snd_eq_zero (write_snd_eq_zero_iff.mpr (hop (by simpa using hended))) with
      heq | heq
    · rw [heq]
      exact ⟨S, hS⟩
    · rw [heq]
      exact ⟨_, hS.step h.sound .connect fun _ hf => by cases hf⟩

/-- **The outbound stream stays at its end.** -/
theorem Final.eof_step (h : c.Final) (hop : c.LateWritesEmpty op)
    (heof : c.sender.stream.eof = true) : (c.step op).sender.stream.eof = true := by
  by_cases hwrite : ∃ data, op = .write data
  · obtain ⟨data, rfl⟩ := hwrite
    have hended := (ByteStream.eof_iff.mp heof).1
    rcases step_write_of_snd_eq_zero (write_snd_eq_zero_iff.mpr (hop hended)) with heq | heq
    · rw [heq]
      exact heof
    · rw [heq]
      exact h.sound.eof_step heof fun _ hf => by cases hf
  · exact h.sound.eof_step heof fun data hdata => hwrite ⟨data, hdata⟩

/-- **After FIN** the next sequence number is the number of bytes written, SYN and FIN added. -/
theorem Final.nextSeqno_eq (h : c.Final) (hfin : c.sender.finSent = true) :
    c.sender.nextSeqno = c.sender.stream.bytesWritten + 2 := by
  obtain ⟨S, hS⟩ := h.transmits
  rw [hS.carries.nextSeqno_of_finSent hfin, hS.carries.length_eq]

/-- The outbound stream has ended if and only if `end_input_stream` was called. -/
theorem inputEnded_exec_iff (cfg : TCPConfig) (randomIsn : WrappingInt32)
    (ops : List ConnectionOp) :
    (Run.exec TCPConnection.step (new cfg randomIsn) ops).sender.stream.inputEnded = true ↔
      .endInputStream ∈ ops := by
  induction ops using List.reverseRecOn with
  | nil => simp [new, TCPSender.new, ByteStream.new]
  | append_singleton ops op ih =>
    have hstep := (sound_run cfg randomIsn ops).step_inputEnded op
    rw [Run.exec_append, Run.exec_cons, Run.exec_nil, hstep, Bool.or_eq_true, ih,
      decide_eq_true_iff, List.mem_append, List.mem_singleton, eq_comm]

/-! ## Runs -/

section Runs

variable {ops : List ConnectionOp} (h : c.Final)
  (hops : Run.Always TCPConnection.step LateWritesEmpty c ops)

include h hops

theorem Final.exec : (Run.exec TCPConnection.step c ops).Final :=
  Run.invariant (fun _ _ h hop => h.step hop) h hops

theorem Final.eof_exec (heof : c.sender.stream.eof = true) :
    (Run.exec TCPConnection.step c ops).sender.stream.eof = true :=
  (Run.invariant (I := fun c : TCPConnection => c.Final ∧ c.sender.stream.eof = true)
    (fun _ _ h hop => ⟨h.1.step hop, h.1.eof_step hop h.2⟩) ⟨h, heof⟩ hops).2

end Runs

/-- The condition on the calls, over the prefixes of a run. -/
theorem always_lateWritesEmpty_iff (cfg : TCPConfig) (randomIsn : WrappingInt32)
    (ops : List ConnectionOp) :
    Run.Always TCPConnection.step LateWritesEmpty (new cfg randomIsn) ops ↔
      ∀ before data, before ++ [.write data] <+: ops → .endInputStream ∈ before →
        data = [] ∨ (Run.exec TCPConnection.step (new cfg randomIsn)
          before).sender.stream.remainingCapacity = 0 := by
  rw [Run.always_iff_forall]
  constructor
  · intro h before data hpre hended
    exact h before (.write data) hpre ((inputEnded_exec_iff cfg randomIsn before).mpr hended)
  · intro h before op hpre
    cases op with
    | write data =>
      intro hended
      exact h before data hpre ((inputEnded_exec_iff cfg randomIsn before).mp hended)
    | _ => trivial

end TCPConnection

/-- **When the outbound stream is final.** In a run, no write after `end_input_stream` adds a byte,
the end of the stream, once reached, stays reached, and whenever FIN has been sent the next sequence
number is the number of bytes written plus two, if and only if every write after `end_input_stream`
has no data or finds no room in the stream. -/
theorem outbound_final_iff (cfg : TCPConfig) (randomIsn : WrappingInt32)
    (ops : List ConnectionOp) :
    let reached := Run.exec TCPConnection.step (TCPConnection.new cfg randomIsn)
    ((∀ before data, before ++ [.write data] <+: ops → .endInputStream ∈ before →
        ((reached before).write data).2 = 0 ∧
          ((reached before).write data).1.sender.stream.bytesWritten =
            (reached before).sender.stream.bytesWritten) ∧
      (∀ before later, before ++ later <+: ops → (reached before).sender.stream.eof = true →
        (reached (before ++ later)).sender.stream.eof = true) ∧
      (∀ before, before <+: ops → (reached before).sender.finSent = true →
        (reached before).sender.nextSeqno = (reached before).sender.stream.bytesWritten + 2)) ↔
    ∀ before data, before ++ [.write data] <+: ops → .endInputStream ∈ before →
      data = [] ∨ (reached before).sender.stream.remainingCapacity = 0 := by
  intro reached
  constructor
  · rintro ⟨hwrite, -, -⟩ before data hpre hended
    exact TCPConnection.write_snd_eq_zero_iff.mp (hwrite before data hpre hended).1
  · intro hcond
    have hlate := (TCPConnection.always_lateWritesEmpty_iff cfg randomIsn ops).mpr hcond
    have hfinal : ∀ before, before <+: ops → (reached before).Final := by
      rintro before ⟨after, rfl⟩
      exact (TCPConnection.final_new cfg randomIsn).exec (Run.always_append.mp hlate).1
    refine ⟨fun before data hpre hended => ?_, ?_,
      fun before hpre => (hfinal before hpre).nextSeqno_eq⟩
    · have hzero := TCPConnection.write_snd_eq_zero_iff.mpr (hcond before data hpre hended)
      refine ⟨hzero, ?_⟩
      rw [TCPConnection.bytesWritten_write (TCPConnection.sound_run cfg randomIsn before), hzero,
        Nat.add_zero]
    · rintro before later ⟨after, rfl⟩ heof
      have hlater := (Run.always_append.mp (Run.always_append.mp hlate).1).2
      have hprefix : before <+: before ++ later ++ after := by
        rw [List.append_assoc]
        exact List.prefix_append before _
      change (Run.exec TCPConnection.step _ (before ++ later)).sender.stream.eof = true
      rw [Run.exec_append]
      exact (hfinal before hprefix).eof_exec hlater heof

/-- A byte is written after `end_input_stream`, which has sent the FIN: the write is accepted, the
stream is no longer at its end, and the sequence numbers do not count the byte. -/
theorem outbound_grows_after_end :
    let cfg : TCPConfig := { recvCapacity := 4, sendCapacity := 4, fixedIsn := some ⟨0⟩ }
    let before := Run.exec TCPConnection.step (TCPConnection.new cfg ⟨0⟩)
      [.connect,
        .segmentReceived {}
          { header := { seqno := ⟨100⟩, syn := true, ack := true, ackno := ⟨1⟩, win := 9 } },
        .endInputStream]
    let after := before.step (.write [7])
    before.sender.stream.eof = true ∧ (before.write [7]).2 = 1 ∧
      after.sender.stream.eof = false ∧ after.sender.finSent = true ∧
      after.sender.nextSeqno ≠ after.sender.stream.bytesWritten + 2 := by
  decide

end Sponge
