import Mathlib.Tactic
import Sponge.TCPConnection.Stamps

/-!
# Reads of an empty queue

`_ack_valid` compares an acknowledgment with the front of the outstanding queue, without asking
whether there is one; `ack_received` itself asks before each of its other reads. The read is made
whenever the acknowledgment is not beyond the next sequence number, and a connection hands the
sender an acknowledgment for every segment it processes. `frontReads` lists the queues that are
read, and the runs without a read of an empty queue are characterised exactly. As long as a read
finds a segment, what the model takes for the value of an undefined read does not matter.

## Main definitions

* `TCPConnection.frontReads`: the outstanding queues whose front `_ack_valid` reads in a call
* `TCPConnection.ReadsSegments`: none of them is empty
* `TCPConnection.AcksInFlight`: a segment reaches an idle sender only with an acknowledgment beyond
  what was sent
* `TCPConnection.Determined`: the result of a call does not depend on what an undefined read yields

## Main results

* `TCPConnection.Orderly.determined`: a call that reads no empty queue is determined
* `ack_reads_segment_iff`: the runs in which no empty queue is read
* `ack_reads_empty_queue`: a repeated acknowledgment
-/

namespace Sponge

namespace TCPSender

variable {s : TCPSender}

/-- The queues whose front `_ack_valid` reads: the second of its tests is made if the first
holds. -/
def frontReads (s : TCPSender) (ackno : WrappingInt32) : List (List TCPSegment) :=
  if unwrap ackno s.isn s.nextSeqno ≤ s.nextSeqno then [s.segmentsOutstanding] else []

/-- If no empty queue is read, the acknowledgment has one result. -/
theorem ackReceived_stale (ackno : WrappingInt32) (h : ∀ queue ∈ s.frontReads ackno, queue ≠ [])
    (stale stale' : TCPSegment) (windowSize : UInt16) :
    s.ackReceived stale ackno windowSize = s.ackReceived stale' ackno windowSize := by
  have hvalid : s.ackValid stale (unwrap ackno s.isn s.nextSeqno) =
      s.ackValid stale' (unwrap ackno s.isn s.nextSeqno) := by
    unfold ackValid
    by_cases hle : unwrap ackno s.isn s.nextSeqno ≤ s.nextSeqno
    · -- the queue has a front, which is what the test reads
      have hne : s.segmentsOutstanding ≠ [] := h _ (by simp [frontReads, hle])
      obtain ⟨front, segs, hfront⟩ := List.exists_cons_of_ne_nil hne
      rw [hfront, List.headD_cons, List.headD_cons]
    · rw [decide_eq_false hle, Bool.false_and, Bool.false_and]
  unfold ackReceived
  dsimp only
  rw [hvalid]

/-- A tick has one result, whatever the front of an empty queue would yield. -/
theorem Ledger.tick_stale (h : s.Ledger) (stale stale' : TCPSegment) (ms : ℕ) :
    s.tick stale ms = s.tick stale' ms := by
  by_cases hrunning : s.timerRunning = true
  · obtain ⟨front, segs, hfront⟩ := List.exists_cons_of_ne_nil (h.outstanding_ne_nil hrunning)
    unfold tick
    dsimp only
    rw [hfront, List.headD_cons, List.headD_cons]
  · rw [tick_of_stopped (by simpa using hrunning), tick_of_stopped (by simpa using hrunning)]

end TCPSender

namespace TCPConnection

variable {c : TCPConnection} {op : ConnectionOp}

/-- The outstanding queues whose front `_ack_valid` reads in a call. -/
def frontReads (c : TCPConnection) : ConnectionOp → List (List TCPSegment)
  | .segmentReceived _ seg =>
    if c.path seg = .exchanged then c.sender.frontReads seg.header.ackno else []
  | _ => []

/-- **No call reads the front of an empty queue.** -/
def ReadsSegments (c : TCPConnection) (op : ConnectionOp) : Prop :=
  ∀ queue ∈ c.frontReads op, queue ≠ []

instance (c : TCPConnection) : DecidablePred c.ReadsSegments := fun op =>
  inferInstanceAs (Decidable (∀ queue ∈ c.frontReads op, queue ≠ []))

/-- A segment that reaches an active connection with its SYN sent and nothing in flight has an
acknowledgment number beyond everything that was sent. -/
def AcksInFlight (c : TCPConnection) : ConnectionOp → Prop
  | .segmentReceived _ seg =>
    c.active = true → 0 < c.sender.nextSeqno → c.sender.bytesInFlight = 0 →
      c.sender.nextSeqno < unwrap seg.header.ackno c.sender.isn c.sender.nextSeqno
  | _ => True

/-- An unclean shutdown with a segment in the queue of the sender has one result. -/
theorem uncleanShutdown_stale (hne : c.sender.segmentsOut ≠ []) (stale stale' : TCPSegment) :
    c.uncleanShutdown stale = c.uncleanShutdown stale' := by
  obtain ⟨front, segs, hfront⟩ := List.exists_cons_of_ne_nil hne
  have hqueue : c.setErrors.sender.segmentsOut = front :: segs := hfront
  unfold uncleanShutdown
  dsimp only
  rw [hqueue]
  rfl

/-- **Without a read of an empty queue an arriving segment has one result**, whatever such a read
would yield. -/
theorem ReadsSegments.segmentReceived_stale {stale seg : TCPSegment}
    (h : c.ReadsSegments (.segmentReceived stale seg)) (stale' : TCPSegment) :
    c.segmentReceived stale seg = c.segmentReceived stale' seg := by
  rw [segmentReceived_path, segmentReceived_path]
  cases hpath : c.path seg with
  | exchanged =>
    have habsorb : c.heard.absorb stale seg = c.heard.absorb stale' seg := by
      have hack := c.sender.ackReceived_stale seg.header.ackno
        (by simpa [ReadsSegments, frontReads, hpath] using h) stale stale' seg.header.win
      simp only [absorb, mapSender, mapReceiver_sender, heard_sender, hack]
    have hne : ∀ c' : TCPConnection,
        (c'.mapSender TCPSender.sendEmptySegment).sender.segmentsOut ≠ [] := by
      intro c'
      simp [TCPSender.sendEmptySegment]
    unfold exchange
    dsimp only
    rw [habsorb]
    split_ifs
    · exact uncleanShutdown_stale (hne _) stale stale'
    · exact uncleanShutdown_stale (hne _) stale stale'
    · rfl
    · rfl
  | _ => rfl

/-- **Time has one result**, whatever the front of an empty queue would yield. -/
theorem Orderly.tick_stale (h : c.Orderly) (stale stale' : TCPSegment) (ms : ℕ) :
    c.tick stale ms = c.tick stale' ms := by
  unfold tick
  by_cases hactive : c.active = true
  · rw [if_neg (by simp [hactive]), if_neg (by simp [hactive])]
    dsimp only
    rw [mapSender_sender, mapSender_sender, h.bookkeeping.tick_stale stale stale' ms]
    split_ifs with hlimit
    · rw [mapSender, h.bookkeeping.tick_stale stale stale' ms]
      refine congrArg sendSenderSegments (uncleanShutdown_stale ?_ stale stale')
      exact TCPSender.tick_segmentsOut_ne_nil ((h.retx hactive).trans_lt hlimit)
    · simp only [mapSender, h.bookkeeping.tick_stale stale stale' ms]
  · rw [if_pos (by simpa using hactive), if_pos (by simpa using hactive)]

/-- **The call has one result**, whatever the front of an empty queue would yield. -/
def Determined (c : TCPConnection) : ConnectionOp → Prop
  | .segmentReceived stale seg =>
    ∀ stale', c.segmentReceived stale seg = c.segmentReceived stale' seg
  | .tick stale ms => ∀ stale', c.tick stale ms = c.tick stale' ms
  | _ => True

theorem Orderly.determined (h : c.Orderly) (hreads : c.ReadsSegments op) : c.Determined op := by
  cases op with
  | segmentReceived stale seg => exact hreads.segmentReceived_stale
  | tick stale ms => exact fun stale' => h.tick_stale stale stale' ms
  | _ => trivial

theorem Sound.readsSegments_iff (h : c.Sound) (op : ConnectionOp) :
    c.ReadsSegments op ↔ c.AcksInFlight op := by
  cases op with
  | segmentReceived stale seg =>
    have hnil := h.bookkeeping.bytesInFlight_eq_zero_iff
    constructor
    · intro hreads hactive hpos hbif
      by_contra hle
      -- an idle connection is neither closed nor waiting for the acknowledgment of its SYN
      have hpath : c.path seg = .exchanged := by
        refine path_eq_exchanged_iff.mpr ⟨hactive, ?_, fun hsent => ?_⟩
        · simp [closed, hpos.ne']
        · simp [synSent, hbif, hpos.ne] at hsent
      refine hreads c.sender.segmentsOutstanding ?_ (hnil.mp hbif)
      simp [frontReads, TCPSender.frontReads, hpath, Nat.not_lt.mp hle]
    · intro hacks queue hmem hempty
      simp only [frontReads, TCPSender.frontReads] at hmem
      split_ifs at hmem with hpath hle
      · obtain rfl := List.mem_singleton.mp hmem
        obtain ⟨hactive, hclosed, -⟩ := path_eq_exchanged_iff.mp hpath
        have hpos := h.bookkeeping.started (h.synSent_of_not_closed hclosed)
        exact Nat.not_lt.mpr hle (hacks hactive hpos (hnil.mpr hempty))
      · cases hmem
      · cases hmem
  | _ => exact iff_of_true (by simp [ReadsSegments, frontReads]) trivial

end TCPConnection

/-- **When no empty queue is read.** On every run, whatever arrives, `_ack_valid` always finds a
segment in the outstanding queue exactly if every segment that reaches an active connection with its
SYN sent and nothing in flight acknowledges more than was sent. In such a run every call has one
result, whatever a read of an empty queue would yield. -/
theorem ack_reads_segment_iff (cfg : TCPConfig) (randomIsn : WrappingInt32)
    (ops : List ConnectionOp) :
    (Run.Always TCPConnection.step TCPConnection.ReadsSegments
        (TCPConnection.new cfg randomIsn) ops ↔
      Run.Always TCPConnection.step TCPConnection.AcksInFlight
        (TCPConnection.new cfg randomIsn) ops) ∧
    (Run.Always TCPConnection.step TCPConnection.AcksInFlight
        (TCPConnection.new cfg randomIsn) ops →
      Run.Always TCPConnection.step TCPConnection.Determined
        (TCPConnection.new cfg randomIsn) ops) := by
  have horderly := TCPConnection.orderly_new cfg randomIsn
  refine ⟨Run.always_congr (fun _ op h => h.step op) (fun _ op h => h.readsSegments_iff op)
    horderly.toSound, fun hacks => ?_⟩
  -- where the condition holds, no empty queue is read
  exact Run.always_of_invariant (fun _ op h _ => h.step op)
    (fun _ op h hop => h.determined ((h.toSound.readsSegments_iff op).mpr hop)) horderly hacks

/-- **A repeated acknowledgment reads an empty queue.** After the SYN is acknowledged nothing is
outstanding; the same acknowledgment once more makes `_ack_valid` read the front all the same, and
what is found there decides whether its window is recorded. -/
theorem ack_reads_empty_queue :
    let seg : TCPSegment :=
      { header := { seqno := ⟨100⟩, syn := true, ack := true, ackno := ⟨1⟩, win := 9 } }
    let again : TCPSegment := { header := { seqno := ⟨101⟩, ack := true, ackno := ⟨1⟩, win := 5 } }
    let c := Run.exec TCPConnection.step
      (TCPConnection.new { recvCapacity := 4, sendCapacity := 4, fixedIsn := some ⟨0⟩ } ⟨0⟩)
      [.connect, .segmentReceived {} seg]
    c.frontReads (.segmentReceived {} again) = [[]] ∧
      ¬ c.ReadsSegments (.segmentReceived {} again) ∧
      (c.segmentReceived { header := { seqno := ⟨1⟩ } } again).sender.receiverWindowSize = 5 ∧
      (c.segmentReceived { header := { seqno := ⟨2⟩ } } again).sender.receiverWindowSize = 9 := by
  decide

end Sponge
