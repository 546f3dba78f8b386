import Mathlib.Tactic
import Sponge.TCPConnection.FrontReads
import Sponge.TCPConnection.States

/-!
# Unclean shutdowns and the queue of the sender

`unclean_shutdown` puts its RST on whatever segment comes first in the queue of the sender, and
takes for granted that there is one. That it always finds one rests on when the number of
retransmissions can exceed the limit, and on the empty segment that is queued before every other
shutdown. That the segment it finds is the only one rests on `send_sender_segments` having emptied
the queue in every call before; the path of a simultaneous open returns without it. Here is stated
exactly what follows for the queue, for a tick that gives up, and for an arriving RST.

## Main definitions

* `TCPSender.tickReads`, `TCPConnection.shutdownReads`, `TCPConnection.destructorReads`: the queues
  whose front is read without asking whether there is one
* `TCPConnection.Flushes`, `TCPConnection.NoSimultaneousOpen`
* `TCPConnection.AbortsWithReset`, `TCPConnection.TakesReset`, `TCPConnection.LeavesUnanswered`

## Main results

* `shutdown_front_exists`: no read of the front of an empty queue, and no result that depends on one
* `sender_queue_flushed_iff`, `sender_queue_left_behind`: segments that stay with the sender
* `abort_sends_one_reset_iff`, `abort_sends_two_segments`: what a tick that gives up appends
* `reset_unanswered_iff`, `reset_answered`: what an arriving RST appends
-/

namespace Sponge

/-! ## Reads of the front of a queue -/

namespace TCPSender

variable {s : TCPSender}

/-- The queues whose front `tick` reads: the outstanding one, when the timer expires. -/
def tickReads (s : TCPSender) (msSinceLastTick : ℕ) : List (List TCPSegment) :=
  if s.timerRunning = true ∧ s.rto ≤ s.timeElapsed + UInt32.ofNat msSinceLastTick then
    [s.segmentsOutstanding]
  else []

theorem Ledger.ne_nil_of_mem_tickReads (h : s.Ledger) (ms : ℕ) :
    ∀ queue ∈ s.tickReads ms, queue ≠ [] := by
  intro queue hqueue
  unfold tickReads at hqueue
  split_ifs at hqueue with hexpired
  · -- the timer runs only while something is outstanding
    rw [List.mem_singleton.mp hqueue]
    exact h.outstanding_ne_nil hexpired.1
  · cases hqueue

end TCPSender

namespace TCPConnection

variable {c : TCPConnection} {op : ConnectionOp} {stale seg : TCPSegment}

/-- The outstanding queues whose front `TCPSender::tick` reads in a call. -/
def tickReads (c : TCPConnection) : ConnectionOp → List (List TCPSegment)
  | .tick _ ms => if c.active then c.sender.tickReads ms else []
  | _ => []

/-- The queues of the sender whose front `unclean_shutdown` reads in a call. -/
def shutdownReads (c : TCPConnection) (op : ConnectionOp) : List (List TCPSegment) :=
  if (c.ending op).resets then [(c.prepared op).sender.segmentsOut] else []

/-- The queues of the sender whose front `unclean_shutdown` reads in the destructor. -/
def destructorReads (c : TCPConnection) : List (List TCPSegment) :=
  if c.active then [c.sender.sendEmptySegment.segmentsOut] else []

theorem Sound.ne_nil_of_mem_tickReads (h : c.Sound) (op : ConnectionOp) :
    ∀ queue ∈ c.tickReads op, queue ≠ [] := by
  intro queue hqueue
  cases op with
  | tick stale ms =>
    simp only [tickReads] at hqueue
    split_ifs at hqueue
    · exact h.bookkeeping.ne_nil_of_mem_tickReads ms queue hqueue
    · cases hqueue
  | _ => cases hqueue

theorem Orderly.ne_nil_of_mem_shutdownReads (h : c.Orderly) (op : ConnectionOp) :
    ∀ queue ∈ c.shutdownReads op, queue ≠ [] := by
  intro queue hqueue
  unfold shutdownReads at hqueue
  split_ifs at hqueue with hresets
  · rw [List.mem_singleton.mp hqueue]
    exact h.queue_ne_nil hresets
  · cases hqueue

theorem ne_nil_of_mem_destructorReads : ∀ queue ∈ c.destructorReads, queue ≠ [] := by
  intro queue hqueue
  unfold destructorReads at hqueue
  split_ifs at hqueue
  · rw [List.mem_singleton.mp hqueue]
    simp [TCPSender.sendEmptySegment]
  · cases hqueue

/-- **The destructor has one result**, whatever the front of an empty queue would yield. -/
theorem destructor_stale (c : TCPConnection) (stale stale' : TCPSegment) :
    c.destructor stale = c.destructor stale' := by
  unfold destructor
  split_ifs
  · exact uncleanShutdown_stale (by simp [TCPSender.sendEmptySegment]) stale stale'
  · rfl

end TCPConnection

/-- **A shutdown always has a segment to send.** In every run, whatever arrives and wherever the run
is cut off by the destructor, `unclean_shutdown` finds a segment in the queue of the sender whenever
it is executed, and `TCPSender::tick` finds one in the outstanding queue whenever it reads its
front. A call that reads no empty queue in `_ack_valid` either has one result, and so has the
destructor, whatever such a read would yield. -/
theorem shutdown_front_exists (cfg : TCPConfig) (randomIsn : WrappingInt32)
    (ops : List ConnectionOp) :
    Run.Always TCPConnection.step
        (fun c op => (∀ queue ∈ c.shutdownReads op ++ c.tickReads op, queue ≠ []) ∧
          (c.ReadsSegments op → c.Determined op))
        (TCPConnection.new cfg randomIsn) ops ∧
      let c := Run.exec TCPConnection.step (TCPConnection.new cfg randomIsn) ops
      (∀ queue ∈ c.destructorReads, queue ≠ []) ∧
        ∀ stale stale', c.destructor stale = c.destructor stale' := by
  refine ⟨?_, TCPConnection.ne_nil_of_mem_destructorReads, TCPConnection.destructor_stale _⟩
  refine Run.always_of_preserved (fun _ op h => h.step op) ?_
    (TCPConnection.orderly_new cfg randomIsn) ops
  intro c op h
  refine ⟨fun queue hqueue => ?_, h.determined⟩
  rcases List.mem_append.mp hqueue with hshutdown | htick
  · exact h.ne_nil_of_mem_shutdownReads op queue hshutdown
  · exact h.toSound.ne_nil_of_mem_tickReads op queue htick

/-! ## Segments that stay with the sender -/

namespace TCPConnection

variable {c : TCPConnection} {op : ConnectionOp} {stale seg : TCPSegment}

/-- **The call leaves nothing with the sender**, unless it ends the connection. -/
def Flushes (c : TCPConnection) : ConnectionOp → Prop
  | .read _ | .popSegment => True
  | op => (c.step op).active = true → (c.step op).sender.segmentsOut = []

/-- No bare SYN without acknowledgment arrives while the own SYN awaits its answer. -/
def NoSimultaneousOpen (c : TCPConnection) : ConnectionOp → Prop
  | .segmentReceived _ seg =>
    ¬ (c.active = true ∧ c.synSent = true ∧ seg.payload = [] ∧ seg.header.syn = true ∧
      seg.header.ack = false)
  | _ => True

/-- A call that neither sends nor ends the connection leaves the sender alone, but for the
acknowledgment of a simultaneous open. -/
theorem senderCalls_of_rest_eq_nil (hrest : c.ending op = .rest) (hop : c.NoSimultaneousOpen op) :
    c.senderCalls op = [] := by
  cases op with
  | write data =>
    simp only [ending] at hrest
    simp only [senderCalls]
    split_ifs at hrest ⊢
    rfl
  | tick stale ms =>
    simp only [ending] at hrest
    simp only [senderCalls]
    split_ifs at hrest ⊢
    rfl
  | segmentReceived stale seg =>
    have hpath : c.path seg ≠ .simultaneous := fun hp => hop (path_eq_simultaneous_iff.mp hp)
    simp only [ending] at hrest
    simp only [senderCalls]
    cases hcase : c.path seg with
    | simultaneous => exact absurd hcase hpath
    | exchanged =>
      simp only [hcase] at hrest
      split_ifs at hrest
    | _ => simp_all
  | connect => cases hrest
  | endInputStream => cases hrest
  | read len => rfl
  | popSegment => rfl

/-- With an empty queue before it, a call leaves nothing with the sender if it is not a simultaneous
open. -/
theorem step_segmentsOut_eq_nil (hqueue : c.active = true → c.sender.segmentsOut = [])
    (hop : c.NoSimultaneousOpen op) (hactive : (c.step op).active = true) :
    (c.step op).sender.segmentsOut = [] := by
  have hbefore := active_of_step hactive
  cases haborts : (c.ending op).aborts with
  | true =>
    rw [step_active_of_aborts haborts] at hactive
    cases hactive
  | false =>
    rw [step_eq]
    rcases ending_of_not_aborts haborts with hrest | hsend
    · rw [hrest, Ending.apply, prepared, senderCalls_of_rest_eq_nil hrest hop]
      exact hqueue hbefore
    · rw [hsend, Ending.apply, sendSenderSegments_sender]

/-- A simultaneous open leaves its acknowledgment with the sender. -/
theorem step_simultaneous (hpath : c.path seg = .simultaneous) (stale : TCPSegment) :
    (c.step (.segmentReceived stale seg)).active = true ∧
      (c.step (.segmentReceived stale seg)).sender.segmentsOut ≠ [] := by
  have hactive := (path_eq_simultaneous_iff.mp hpath).1
  simp only [step, segmentReceived_path, hpath]
  exact ⟨hactive, by simp [TCPSender.sendEmptySegment]⟩

theorem flushes_iff (hqueue : c.active = true → c.sender.segmentsOut = []) (op : ConnectionOp) :
    c.Flushes op ↔ c.NoSimultaneousOpen op := by
  constructor
  · intro hflush
    cases op with
    | segmentReceived stale seg =>
      intro hsim
      obtain ⟨hactive, hne⟩ := step_simultaneous (path_eq_simultaneous_iff.mpr hsim) stale
      exact hne (hflush hactive)
    | _ => trivial
  · intro hop
    cases op with
    | read len => trivial
    | popSegment => trivial
    | _ => exact step_segmentsOut_eq_nil hqueue hop

/-- A call that leaves nothing with the sender keeps its queue empty while the connection is
active. -/
theorem Flushes.step (hflush : c.Flushes op)
    (hqueue : c.active = true → c.sender.segmentsOut = []) :
    (c.step op).active = true → (c.step op).sender.segmentsOut = [] := by
  cases op with
  | read len => exact hqueue
  | popSegment => exact hqueue
  | _ => exact hflush

end TCPConnection

namespace TCPConnection

variable {c : TCPConnection} {op : ConnectionOp} {stale seg : TCPSegment}

/-- **The call aborts the connection with one RST**: it is inactive, both streams are in error, and
the RST is all that is appended. -/
def AbortsWithReset (c : TCPConnection) (op : ConnectionOp) : Prop :=
  (c.step op).active = false ∧ (c.step op).sender.stream.error = true ∧
    (c.step op).receiver.streamOut.error = true ∧
    ∃ seg, c.appendedBy op = [seg] ∧ seg.header.rst = true

/-- An unclean shutdown makes the connection inactive, with both streams in error. -/
theorem Sound.step_of_aborts (h : c.Sound) (haborts : (c.ending op).aborts = true) :
    (c.step op).active = false ∧ (c.step op).sender.stream.error = true ∧
      (c.step op).receiver.streamOut.error = true := by
  refine ⟨step_active_of_aborts haborts, ?_, ?_⟩
  · rw [h.step_sender_error, haborts, Bool.or_true]
  · rw [step_receiver_error, haborts, Bool.or_true]

/-- A tick that gives up sends what waits with the sender and the retransmitted segment; the first
of them carries the RST. -/
theorem Orderly.appendedBy_giveUp (h : c.Orderly) (hactive : c.active = true) {ms : ℕ}
    (hlimit : TCPConfig.maxRetxAttempts <
      (c.sender.tick stale ms).consecutiveRetransmissions.toNat) :
    ∃ front segs, c.sender.segmentsOut ++ [c.sender.segmentsOutstanding.headD stale] =
        front :: segs ∧
      c.appendedBy (.tick stale ms) =
        c.receiver.stampReset front :: segs.map c.receiver.stamp := by
  have hqueue : (c.sender.tick stale ms).segmentsOut =
      c.sender.segmentsOut ++ [c.sender.segmentsOutstanding.headD stale] := by
    rcases c.sender.tick_cases stale ms with ⟨_, heq⟩ | ⟨-, _, _, -, heq⟩
    · -- the limit is not exceeded without a retransmission
      rw [heq] at hlimit
      exact absurd (h.retx hactive) (Nat.not_le.mpr hlimit)
    · rw [heq]
  obtain ⟨front, segs, hfront⟩ := List.exists_cons_of_ne_nil
    (List.append_ne_nil_of_right_ne_nil c.sender.segmentsOut
      (List.cons_ne_nil (c.sender.segmentsOutstanding.headD stale) []))
  refine ⟨front, segs, hfront, ?_⟩
  have hprepared : (c.prepared (.tick stale ms)).sender.segmentsOut = front :: segs := by
    rw [prepared_tick hactive]
    exact hqueue.trans hfront
  have hending : c.ending (.tick stale ms) = .giveUp stale := by
    simp only [ending, hactive, hlimit, if_true]
  rw [appendedBy_eq, hending, Ending.sent, hprepared]
  rfl

end TCPConnection

/-- **When giving up sends one RST.** In every active state of every run, a tick that exceeds the
limit of retransmissions makes the connection inactive, puts both streams in error and appends one
segment, with RST, exactly if no segment waits in the queue of the sender before it. -/
theorem abort_sends_one_reset_iff (cfg : TCPConfig) (randomIsn : WrappingInt32)
    (ops : List ConnectionOp) (stale : TCPSegment) (ms : ℕ) :
    let c := Run.exec TCPConnection.step (TCPConnection.new cfg randomIsn) ops
    c.active = true →
      TCPConfig.maxRetxAttempts < (c.sender.tick stale ms).consecutiveRetransmissions.toNat →
      (c.AbortsWithReset (.tick stale ms) ↔ c.sender.segmentsOut = []) := by
  intro c hactive hlimit
  have h : c.Orderly :=
    Run.preserved (fun _ op h => h.step op) (TCPConnection.orderly_new cfg randomIsn) ops
  obtain ⟨front, segs, hqueue, happended⟩ := h.appendedBy_giveUp hactive hlimit
  have haborts : (c.ending (.tick stale ms)).aborts = true := by
    simp only [TCPConnection.ending, hactive, hlimit, if_true]
    rfl
  have hends := h.toSound.step_of_aborts haborts
  constructor
  · rintro ⟨-, -, -, seg, hone, -⟩
    -- one segment is appended, so the retransmitted one was the only one
    have hlen := congrArg List.length hqueue
    have hlen' := congrArg List.length (happended.symm.trans hone)
    simp only [List.length_append, List.length_cons, List.length_map, List.length_nil] at hlen hlen'
    exact List.length_eq_zero_iff.mp (by omega)
  · intro hnil
    rw [hnil, List.nil_append] at hqueue
    obtain ⟨rfl, rfl⟩ := List.cons.inj hqueue
    exact ⟨hends.1, hends.2.1, hends.2.2, _, happended, rfl⟩

/-- A SYN that is never answered is given up with one RST. -/
theorem abort_sends_one_reset_iff_unanswered :
    let c := Run.exec TCPConnection.step
      (TCPConnection.new { rtTimeout := 1, recvCapacity := 4, sendCapacity := 4 } ⟨7⟩)
      [.connect, .tick {} 1, .tick {} 2, .tick {} 4, .tick {} 8, .tick {} 16, .tick {} 32,
        .tick {} 64, .tick {} 128]
    c.AbortsWithReset (.tick {} 256) := by
  intro c
  exact (abort_sends_one_reset_iff _ _ _ {} 256 (by decide) (by decide)).mpr (by decide)

/-- **Giving up after a simultaneous open sends two segments.** The acknowledgment of the peer's SYN
still waits with the sender when the ninth retransmission of the own SYN is due; it carries the RST,
and the SYN follows without one. -/
theorem abort_sends_two_segments :
    let c := Run.exec TCPConnection.step
      (TCPConnection.new { rtTimeout := 1, recvCapacity := 4, sendCapacity := 4 } ⟨7⟩)
      [.connect, .tick {} 1, .tick {} 2, .tick {} 4, .tick {} 8, .tick {} 16, .tick {} 32,
        .tick {} 64, .tick {} 128,
        .segmentReceived {} { header := { seqno := ⟨9⟩, syn := true } }]
    c.active = true ∧
      TCPConfig.maxRetxAttempts < (c.sender.tick {} 256).consecutiveRetransmissions.toNat ∧
      c.appendedBy (.tick {} 256) =
        [{ header :=
            { seqno := ⟨8⟩, ackno := ⟨10⟩, ack := true, rst := true, win := 4 } },
          { header := { seqno := ⟨7⟩, ackno := ⟨10⟩, ack := true, syn := true, win := 4 } }] ∧
      ¬ c.AbortsWithReset (.tick {} 256) := by
  intro c
  have hlen : (c.appendedBy (.tick {} 256)).length = 2 := by decide
  refine ⟨by decide, by decide, by decide, ?_⟩
  rintro ⟨-, -, -, seg, hone, -⟩
  rw [hone] at hlen
  cases hlen

/-! ## Arriving resets -/

namespace TCPConnection

variable {c : TCPConnection} {op : ConnectionOp} {stale seg : TCPSegment}

/-- **The call takes a RST without an answer**: nothing is appended, and if the SYN of the peer had
arrived at the active endpoint, the connection is inactive with both streams in error. -/
def TakesReset (c : TCPConnection) (op : ConnectionOp) : Prop :=
  c.appendedBy op = [] ∧
    (c.receiver.isn.isSome = true → c.active = true →
      (c.step op).active = false ∧ (c.step op).sender.stream.error = true ∧
        (c.step op).receiver.streamOut.error = true)

/-- The endpoint is inactive, or it listens and the segment has no SYN, or its own SYN awaits its
answer. -/
def LeavesUnanswered (c : TCPConnection) (seg : TCPSegment) : Prop :=
  c.active = true → (c.closed = true ∧ seg.header.syn = false) ∨ c.synSent = true

instance (c : TCPConnection) (seg : TCPSegment) : Decidable (c.LeavesUnanswered seg) :=
  inferInstanceAs (Decidable (_ → _))

/-- A RST is handed to the sender exactly if the handshake is over, or its own SYN is
acknowledged. -/
theorem path_reset_cases (hrst : seg.header.rst = true) :
    (c.LeavesUnanswered seg ∧ c.path seg ≠ .answered ∧ c.path seg ≠ .exchanged) ∨
      (¬ c.LeavesUnanswered seg ∧ (c.path seg = .exchanged ∨
        (c.path seg = .answered ∧ c.closed = true))) := by
  have hclosed := closed_of_synSent (c := c)
  unfold LeavesUnanswered path
  split_ifs <;> simp_all

/-- The first SYN is answered. -/
theorem Sound.appendedBy_answered (h : c.Sound) (hpath : c.path seg = .answered)
    (hclosed : c.closed = true) (stale : TCPSegment) :
    c.appendedBy (.segmentReceived stale seg) ≠ [] := by
  have hunsent : c.sender.synSent = false := by
    by_contra hf
    have hpos := h.bookkeeping.started (by simpa using hf)
    simp [closed, hpos.ne'] at hclosed
  have hending : c.ending (.segmentReceived stale seg) = .send := by simp only [ending, hpath]
  have hqueue : (c.prepared (.segmentReceived stale seg)).sender.segmentsOut ≠ [] := by
    simp only [prepared, senderCalls, hpath]
    rw [Run.exec_cons, Run.exec_nil, TCPSender.step,
      (TCPSender.fillWindow_syn h.bookkeeping.wellFormed hunsent).segmentsOut_eq]
    simp
  rw [appendedBy_eq, hending, Ending.sent, ne_eq, List.map_eq_nil_iff]
  exact hqueue

/-- Where nothing is answered, nothing is appended. -/
theorem appendedBy_eq_nil (hanswered : c.path seg ≠ .answered)
    (hexchanged : c.path seg ≠ .exchanged) (stale : TCPSegment) :
    c.appendedBy (.segmentReceived stale seg) = [] := by
  rw [appendedBy_eq, ending]
  cases hpath : c.path seg with
  | answered => exact absurd hpath hanswered
  | exchanged => exact absurd hpath hexchanged
  | _ => rfl

/-- Once the SYN of the peer has arrived, a RST ends an active connection. -/
theorem aborts_of_reset (hrst : seg.header.rst = true)
    (hisn : c.receiver.isn.isSome = true) (hactive : c.active = true) (stale : TCPSegment) :
    (c.ending (.segmentReceived stale seg)).aborts = true := by
  simp only [ending, path_of_isn hactive hisn, hrst, if_true]
  rfl

theorem Sound.takesReset_iff (h : c.Sound) (hrst : seg.header.rst = true) (stale : TCPSegment) :
    c.TakesReset (.segmentReceived stale seg) ↔ c.LeavesUnanswered seg := by
  rcases path_reset_cases (c := c) hrst with ⟨hleaves, hanswered, hexchanged⟩ | ⟨hnot, hpath⟩
  · have hnone := appendedBy_eq_nil hanswered hexchanged stale
    refine iff_of_true ⟨hnone, fun hisn hactive => ?_⟩ hleaves
    exact h.step_of_aborts (aborts_of_reset hrst hisn hactive stale)
  · refine iff_of_false (fun htakes => ?_) hnot
    rcases hpath with hexchanged | ⟨hanswered, hclosed⟩
    · -- the RST is answered with a RST
      have hsent := htakes.1
      simp only [appendedBy_eq, ending, hexchanged, hrst, if_true, Ending.sent] at hsent
      cases hsent
    · exact h.appendedBy_answered hanswered hclosed stale htakes.1

end TCPConnection

/-- **When a RST is not answered.** In every state of every run, an arriving segment with RST
appends nothing, and ends an active connection that has the SYN of its peer with both streams in
error, exactly if the endpoint is inactive, or it listens and the segment has no SYN, or its own SYN
awaits its answer. -/
theorem reset_unanswered_iff (cfg : TCPConfig) (randomIsn : WrappingInt32)
    (ops : List ConnectionOp) (stale seg : TCPSegment) (hrst : seg.header.rst = true) :
    let c := Run.exec TCPConnection.step (TCPConnection.new cfg randomIsn) ops
    c.TakesReset (.segmentReceived stale seg) ↔ c.LeavesUnanswered seg :=
  (TCPConnection.sound_run cfg randomIsn ops).takesReset_iff hrst stale

/-- A RST to a listening endpoint is not answered. -/
theorem reset_unanswered_iff_listening :
    let c := TCPConnection.new { recvCapacity := 4, sendCapacity := 4 } ⟨0⟩
    c.TakesReset (.segmentReceived {} { header := { rst := true } }) := by
  intro c
  exact (reset_unanswered_iff _ _ [] {} { header := { rst := true } } rfl).mpr (by decide)

/-- **A RST is answered with a RST.** After the handshake a RST ends the connection, and a RST is
appended; a RST on the first SYN is answered with a SYN. -/
theorem reset_answered :
    let c := TCPConnection.new { recvCapacity := 4, sendCapacity := 4 } ⟨0⟩
    let established := Run.exec TCPConnection.step c
      [.connect,
        .segmentReceived {}
          { header := { seqno := ⟨9⟩, syn := true, ack := true, ackno := ⟨1⟩, win := 4 } }]
    established.appendedBy (.segmentReceived {}
        { header := { seqno := ⟨10⟩, ack := true, ackno := ⟨1⟩, rst := true, win := 4 } }) =
      [{ header := { seqno := ⟨1⟩, ack := true, ackno := ⟨10⟩, rst := true, win := 4 } }] ∧
      c.appendedBy (.segmentReceived {} { header := { seqno := ⟨9⟩, syn := true, rst := true } }) =
        [{ header := { seqno := ⟨0⟩, ack := true, ackno := ⟨10⟩, syn := true, win := 4 } }] := by
  decide

end Sponge
