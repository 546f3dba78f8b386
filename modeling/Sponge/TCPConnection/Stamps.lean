import Mathlib.Tactic
import Sponge.TCPConnection.Silence
import Sponge.TCPConnection.Transmission
import Sponge.TCPSender.Timer

/-!
# The stamps on outgoing segments

A segment leaves a connection through `send_sender_segments`, which puts the acknowledgment number
and the window on it if there is an acknowledgment number, or through `unclean_shutdown`, which sets
the ACK flag in any case. Both narrow the window to the 16 bits of its field. The sender itself sets
neither, and while a connection is active the number of retransmissions is within the limit:
`Orderly` says so, and holds along every run, also when the application writes after the end of its
input. What follows for the ACK flag and the window field is stated exactly.

## Main definitions

* `TCPConnection.Orderly`: the invariant of every run
* `TCPConnection.StampsTruthfully`, `TCPConnection.AdvertisesSoundly`: what the fields should say
* `TCPConnection.ResetsKnown`: no RST is sent before the SYN of the peer has arrived

## Main results

* `TCPConnection.Orderly.step`: every call keeps the invariant
* `ack_fields_truthful_iff`, `ack_fields_untruthful`: the ACK flag and the acknowledgment number
* `advertised_window_sound_iff`, `advertised_window_unsound`: the window
-/

namespace Sponge

/-! ## Retransmissions -/

namespace TCPSender

variable {s : TCPSender}

/-- **Only a tick raises the number of retransmissions.** -/
theorem Bookkeeping.step_retransmissions (hb : s.Bookkeeping) {op : SenderOp}
    (hop : ∀ stale ms, op ≠ .tick stale ms) :
    (s.step op).consecutiveRetransmissions.toNat ≤ s.consecutiveRetransmissions.toNat := by
  cases op with
  | tick stale ms => exact absurd rfl (hop stale ms)
  | fillWindow => exact (congrArg UInt16.toNat hb.fillWindow_retransmissions).le
  | ackReceived stale ackno windowSize =>
    exact hb.ackReceived_retransmissions stale ackno windowSize
  | _ => exact le_rfl

/-- When a tick exceeds the limit of retransmissions: the timer expires, the retransmission counts,
and the limit was reached. -/
theorem Bookkeeping.tick_exceeds_iff (hb : s.Bookkeeping)
    (hretx : s.consecutiveRetransmissions.toNat ≤ TCPConfig.maxRetxAttempts) (stale : TCPSegment)
    (ms : ℕ) :
    TCPConfig.maxRetxAttempts < (s.tick stale ms).consecutiveRetransmissions.toNat ↔
      s.timerRunning = true ∧ s.rto ≤ s.timeElapsed + UInt32.ofNat ms ∧
        (s.receiverWindowSize ≠ 0 ∨ s.synOutstanding = true) ∧
        s.consecutiveRetransmissions.toNat = TCPConfig.maxRetxAttempts := by
  rw [← countsExpiry_iff]
  by_cases hrunning : s.timerRunning = true
  · by_cases hexpired : s.rto ≤ s.timeElapsed + UInt32.ofNat ms
    · obtain ⟨front, segs, hfront⟩ := List.exists_cons_of_ne_nil (hb.outstanding_ne_nil hrunning)
      rw [tick_of_expired hrunning (by rw [hfront, List.head?_cons]) hexpired]
      by_cases hcounts : s.countsExpiry = true
      · -- the number of retransmissions is raised by one
        have hadd : (s.consecutiveRetransmissions + 1).toNat =
            s.consecutiveRetransmissions.toNat + 1 := by
          unfold TCPConfig.maxRetxAttempts at hretx
          rw [UInt16.toNat_add, UInt16.toNat_one, Nat.mod_eq_of_lt (by omega)]
        simp only [hrunning, hexpired, hcounts, if_true, true_and, hadd]
        omega
      · rw [if_neg hcounts]
        exact iff_of_false (Nat.not_lt.mpr hretx) fun hc => hcounts hc.2.2.1
    · rw [tick_of_pending hrunning hexpired]
      exact iff_of_false (Nat.not_lt.mpr hretx) fun hc => hexpired hc.2.1
  · rw [tick_of_stopped (by simpa using hrunning)]
    exact iff_of_false (Nat.not_lt.mpr hretx) fun hc => hrunning hc.1

end TCPSender

/-! ## The invariant of every run -/

namespace TCPConnection

variable {c : TCPConnection} {op : ConnectionOp}

/-- **The invariant of every run**: the connection is sound, its sender stamps nothing, and while it
is active the number of retransmissions is within the limit. -/
structure Orderly (c : TCPConnection) : Prop extends Sound c where
  unstamped : c.sender.Unstamped
  retx : c.active = true →
    c.sender.consecutiveRetransmissions.toNat ≤ TCPConfig.maxRetxAttempts

theorem orderly_new (cfg : TCPConfig) (randomIsn : WrappingInt32) :
    (new cfg randomIsn).Orderly where
  toSound := sound_new cfg randomIsn
  unstamped := by simp [new, TCPSender.new, TCPSender.Unstamped]
  retx := fun _ => Nat.zero_le _

theorem Orderly.unstamped_prepared (h : c.Orderly) (op : ConnectionOp) :
    (c.prepared op).sender.Unstamped :=
  h.bookkeeping.exec (fun _ call hb hs _ => hs.step hb call) h.unstamped

/-- An active connection is within the limit after a call that leaves it active. -/
theorem Orderly.retx_step (h : c.Orderly) (op : ConnectionOp)
    (hactive : (c.step op).active = true) :
    (c.step op).sender.consecutiveRetransmissions.toNat ≤ TCPConfig.maxRetxAttempts := by
  have hbefore := active_of_step hactive
  by_cases htick : ∃ stale ms, op = .tick stale ms
  · -- a tick that exceeds the limit makes the connection inactive
    obtain ⟨stale, ms, rfl⟩ := htick
    rw [step_eq] at hactive ⊢
    simp only [ending, hbefore, if_true] at hactive ⊢
    split_ifs at hactive ⊢ with hlimit
    · rw [Ending.apply, sendSenderSegments_inactive rfl] at hactive
      cases hactive
    · rw [Ending.apply, sendSenderSegments_sender, prepared_tick hbefore]
      exact Nat.not_lt.mp hlimit
  · refine le_trans ?_ (h.retx hbefore)
    rw [step_sender]
    refine h.bookkeeping.exec
      (I := fun s => s.consecutiveRetransmissions.toNat ≤ c.sender.consecutiveRetransmissions.toNat)
      (fun s call hb hs hcall => le_trans (hb.step_retransmissions ?_) hs) le_rfl
    rintro stale ms rfl
    cases c.makes_of_mem_allSenderCalls op _ hcall
    exact htick ⟨stale, ms, rfl⟩

/-- **Every call keeps a connection orderly.** -/
theorem Orderly.step (h : c.Orderly) (op : ConnectionOp) : (c.step op).Orderly where
  toSound := h.toSound.step op
  unstamped := by
    rw [step_sender]
    exact h.bookkeeping.exec (fun _ call hb hs _ => hs.step hb call) h.unstamped
  retx := h.retx_step op

end TCPConnection

/-! ## The stamps -/

namespace TCPReceiver

variable {r : TCPReceiver} {seg : TCPSegment}

/-- A stamped segment has the ACK flag exactly if there is an acknowledgment number, and then that
number and the window. -/
theorem stamp_fields (h : seg.header.ack = false) :
    ((r.stamp seg).header.ack = true ↔ r.ackno.isSome = true) ∧
      (∀ ackno ∈ r.ackno, (r.stamp seg).header.ackno = ackno) ∧
      ((r.stamp seg).header.ack = true →
        (r.stamp seg).header.win = UInt16.ofNat r.windowSize) := by
  unfold stamp
  cases r.ackno with
  | none => simp [h]
  | some ackno => simp

end TCPReceiver

namespace TCPConnection

variable {c : TCPConnection} {op : ConnectionOp}

/-- **The ACK fields are truthful**: an appended segment has the ACK flag exactly if there is an
acknowledgment number, and then that number. -/
def StampsTruthfully (c : TCPConnection) (op : ConnectionOp) : Prop :=
  ∀ seg ∈ c.appendedBy op,
    (seg.header.ack = true ↔ (c.step op).receiver.ackno.isSome = true) ∧
      ∀ ackno ∈ (c.step op).receiver.ackno, seg.header.ackno = ackno

instance (c : TCPConnection) (op : ConnectionOp) : Decidable (c.StampsTruthfully op) :=
  inferInstanceAs (Decidable (∀ seg ∈ c.appendedBy op, _ ∧ ∀ ackno ∈ _, _))

theorem Orderly.mem_appendedBy (h : c.Orderly) {seg : TCPSegment} (hseg : seg ∈ c.appendedBy op) :
    (∃ seg₀, seg₀.header.ack = false ∧ seg = (c.received op).stamp seg₀) ∨
      ((c.ending op).resets = true ∧ ∃ seg₀, seg = (c.received op).stampReset seg₀) := by
  rw [appendedBy_eq] at hseg
  rcases Ending.mem_sent hseg with ⟨seg₀, hm, heq⟩ | ⟨hresets, stale, heq⟩
  · exact Or.inl ⟨seg₀, h.unstamped_prepared op seg₀ (List.mem_append_left _ hm), heq⟩
  · exact Or.inr ⟨hresets, _, heq⟩

/-- The ACK fields are truthful exactly if a RST is sent only with an acknowledgment number. -/
theorem Orderly.stampsTruthfully_iff (h : c.Orderly) (op : ConnectionOp) :
    c.StampsTruthfully op ↔
      ((c.ending op).resets = true → (c.received op).ackno.isSome = true) := by
  unfold StampsTruthfully
  rw [step_receiver_ackno]
  constructor
  · intro htruth hresets
    -- the RST has the ACK flag in any case
    have hmem : ∃ seg₀, (c.received op).stampReset seg₀ ∈ c.appendedBy op := by
      rw [appendedBy_eq]
      cases hending : c.ending op with
      | reset stale => exact ⟨_, List.mem_singleton.mpr rfl⟩
      | giveUp stale => exact ⟨_, List.mem_cons_self⟩
      | _ =>
        rw [hending] at hresets
        cases hresets
    obtain ⟨seg₀, hm⟩ := hmem
    exact (htruth _ hm).1.mp rfl
  · intro hresets seg hseg
    rcases h.mem_appendedBy hseg with ⟨seg₀, hack, rfl⟩ | ⟨hreset, seg₀, rfl⟩
    · obtain ⟨hflag, hackno, -⟩ := (c.received op).stamp_fields hack
      exact ⟨hflag, hackno⟩
    · obtain ⟨ackno, hackno⟩ := Option.isSome_iff_exists.mp (hresets hreset)
      refine ⟨iff_of_true rfl (hresets hreset), fun ackno' hmem => ?_⟩
      rw [hackno, Option.mem_some_iff] at hmem
      subst hmem
      simp [TCPReceiver.stampReset, hackno]

/-- **No RST is sent before the SYN of the peer has arrived**: no tick exceeds the limit of
retransmissions, and no RST arrives after the own SYN, or a part of what was sent, was
acknowledged. -/
def ResetsKnown (c : TCPConnection) : ConnectionOp → Prop
  | .tick _ ms =>
    c.receiver.isn = none → c.active = true →
      ¬ (c.sender.timerRunning = true ∧
        c.sender.rto ≤ c.sender.timeElapsed + UInt32.ofNat ms ∧
        (c.sender.receiverWindowSize ≠ 0 ∨ c.sender.synOutstanding = true) ∧
        c.sender.consecutiveRetransmissions.toNat = TCPConfig.maxRetxAttempts)
  | .segmentReceived _ seg =>
    c.receiver.isn = none → c.active = true →
      ¬ (seg.header.rst = true ∧ seg.header.syn = false ∧ 0 < c.sender.nextSeqno ∧
        c.sender.bytesInFlight ≠ c.sender.nextSeqno)
  | _ => True

theorem resets_tick_iff {stale : TCPSegment} {ms : ℕ} :
    (c.ending (.tick stale ms)).resets = true ↔ c.active = true ∧
      TCPConfig.maxRetxAttempts < (c.sender.tick stale ms).consecutiveRetransmissions.toNat := by
  simp only [ending]
  split_ifs with hactive hlimit
  · exact iff_of_true rfl ⟨hactive, hlimit⟩
  · exact iff_of_false (by simp [Ending.resets]) fun hc => hlimit hc.2
  · exact iff_of_false (by simp [Ending.resets]) fun hc => hactive hc.1

theorem resets_segmentReceived_iff {stale seg : TCPSegment} :
    (c.ending (.segmentReceived stale seg)).resets = true ↔
      c.path seg = .exchanged ∧ seg.header.rst = true := by
  simp only [ending]
  cases hpath : c.path seg with
  | exchanged =>
    dsimp only
    split_ifs with hrst <;> simp [Ending.resets, hrst]
  | _ => simp [Ending.resets]

theorem Orderly.resetsKnown_tick_iff (h : c.Orderly) (stale : TCPSegment) (ms : ℕ) :
    ((c.ending (.tick stale ms)).resets = true →
        (c.received (.tick stale ms)).ackno.isSome = true) ↔ c.ResetsKnown (.tick stale ms) := by
  have hknown : (c.received (.tick stale ms)).ackno.isSome = true ↔ c.receiver.isn ≠ none := by
    rw [TCPReceiver.ackno_isSome_iff]
    exact Option.isSome_iff_ne_none
  rw [resets_tick_iff, hknown]
  constructor
  · rintro hknown hisn hactive hexceeds
    exact hknown ⟨hactive, (h.bookkeeping.tick_exceeds_iff (h.retx hactive) stale ms).mpr
      hexceeds⟩ hisn
  · rintro hresets ⟨hactive, hlimit⟩ hisn
    exact hresets hisn hactive
      ((h.bookkeeping.tick_exceeds_iff (h.retx hactive) stale ms).mp hlimit)

theorem Orderly.resetsKnown_segmentReceived_iff (h : c.Orderly) (stale seg : TCPSegment) :
    ((c.ending (.segmentReceived stale seg)).resets = true →
        (c.received (.segmentReceived stale seg)).ackno.isSome = true) ↔
      c.ResetsKnown (.segmentReceived stale seg) := by
  rw [resets_segmentReceived_iff]
  constructor
  · rintro hknown hisn hactive ⟨hrst, hsyn, hpos, hne⟩
    have hpath : c.path seg = .exchanged :=
      path_eq_exchanged_iff.mpr ⟨hactive, by simp [closed, hpos.ne'],
        fun hsent => absurd (by simp_all [synSent]) hne⟩
    have hnone := TCPReceiver.segmentReceived_ackno_eq_none_iff.mpr
      ⟨TCPReceiver.ackno_eq_none_iff.mpr hisn, hsyn⟩
    have hsome := hknown ⟨hpath, hrst⟩
    rw [received_exchanged hpath, hnone] at hsome
    cases hsome
  · rintro hknown ⟨hpath, hrst⟩
    obtain ⟨hactive, hclosed, hsent⟩ := path_eq_exchanged_iff.mp hpath
    have hpos := h.bookkeeping.started (h.synSent_of_not_closed hclosed)
    rw [received_exchanged hpath, Option.isSome_iff_ne_none]
    intro hnone
    obtain ⟨hackno, hsyn⟩ := TCPReceiver.segmentReceived_ackno_eq_none_iff.mp hnone
    refine hknown (TCPReceiver.ackno_eq_none_iff.mp hackno) hactive
      ⟨hrst, hsyn, hpos, fun heq => ?_⟩
    -- with nothing acknowledged the RST would have been a refusal
    have hrst' := (hsent (by simp [synSent, hpos, heq, hackno])).2.2
    rw [hrst] at hrst'
    cases hrst'

theorem Orderly.resetsKnown_iff (h : c.Orderly) (op : ConnectionOp) :
    ((c.ending op).resets = true → (c.received op).ackno.isSome = true) ↔ c.ResetsKnown op := by
  cases op with
  | tick stale ms => exact h.resetsKnown_tick_iff stale ms
  | segmentReceived stale seg => exact h.resetsKnown_segmentReceived_iff stale seg
  | write data =>
    refine iff_of_true (fun hf => ?_) trivial
    simp only [ending] at hf
    split_ifs at hf <;> cases hf
  | _ => exact iff_of_true (fun hf => by cases hf) trivial

end TCPConnection

/-- **When the ACK fields are truthful.** On every run, whatever arrives, every appended segment has
the ACK flag exactly if the receiver has an acknowledgment number, and then that number, exactly if
no RST is sent before the SYN of the peer has arrived: no tick exceeds the limit of retransmissions,
and no RST arrives after an acknowledgment. -/
theorem ack_fields_truthful_iff (cfg : TCPConfig) (randomIsn : WrappingInt32)
    (ops : List ConnectionOp) :
    Run.Always TCPConnection.step TCPConnection.StampsTruthfully
        (TCPConnection.new cfg randomIsn) ops ↔
      Run.Always TCPConnection.step TCPConnection.ResetsKnown
        (TCPConnection.new cfg randomIsn) ops :=
  Run.always_congr (fun _ op h => h.step op)
    (fun _ op h => (h.stampsTruthfully_iff op).trans (h.resetsKnown_iff op))
    (TCPConnection.orderly_new cfg randomIsn)

/-- **A RST that acknowledges nothing.** A SYN that is never answered is sent again eight times; the
ninth time the connection gives up with a RST that has the ACK flag, while there is no
acknowledgment number, and the number in its field is `0`. -/
theorem ack_fields_untruthful :
    let c := Run.exec TCPConnection.step
      (TCPConnection.new { rtTimeout := 1, recvCapacity := 4, sendCapacity := 4 } ⟨7⟩)
      [.connect, .tick {} 1, .tick {} 2, .tick {} 4, .tick {} 8, .tick {} 16, .tick {} 32,
        .tick {} 64, .tick {} 128]
    c.appendedBy (.tick {} 256) =
        [{ header :=
            { seqno := ⟨7⟩, ack := true, rst := true, syn := true, win := 4 } }] ∧
      (c.step (.tick {} 256)).receiver.ackno = none ∧ ¬ c.StampsTruthfully (.tick {} 256) := by
  decide

/-! ## The window -/

/-- The first bytes of a stream are all delivered, if there is room for them. -/
theorem StreamReassembler.delivered_new_length {capacity : ℕ} {data : List UInt8}
    (h : data.length ≤ capacity) : ((new capacity).delivered data 0).length = data.length := by
  have hinserted : ∀ i, (new capacity).inserted data 0 i =
      if i < data.length then data[i]? else none := by
    intro i
    rw [inserted, Reassembly.insert, pending_new]
    simp only [new, Nat.zero_le, true_and, Nat.zero_add, Nat.sub_zero]
    split_ifs
    · rfl
    · omega
    · omega
    · rfl
  refine Reassembly.length_contiguous_eq h (fun i hi => ?_) ?_
  · rw [hinserted, show (new capacity).rpos + i = i from Nat.zero_add i, if_pos hi,
      List.getElem?_eq_getElem hi]
    exact Option.some_ne_none _
  · rw [hinserted, show (new capacity).rpos + data.length = data.length from Nat.zero_add _,
      if_neg (lt_irrefl _)]

/-- The payload of the first SYN goes to the start of the stream. -/
theorem TCPReceiver.segmentReceived_first_syn {capacity : ℕ} (hcap : 0 < capacity)
    (seg : TCPSegment) (hsyn : seg.header.syn = true) :
    ∃ eof, ((new capacity).segmentReceived seg).1.streamOut =
      ((StreamReassembler.new capacity).pushSubstring seg.payload 0 eof).output := by
  have hlearn : (new capacity).learnIsn seg = some seg.header.seqno := by
    simp [learnIsn, new, hsyn]
  have hstart : unwrap seg.header.seqno seg.header.seqno
      (new capacity).streamOut.bytesWritten = 0 := by
    have hzero : unwrap (wrap 0 seg.header.seqno) seg.header.seqno 0 = 0 :=
      unwrap_wrap _ (by decide) (by decide)
    rwa [wrap_zero] at hzero
  have hlen : 0 < seg.lengthInSequenceSpace := by simp [TCPSegment.lengthInSequenceSpace, hsyn]
  rcases segmentReceived_cases (new capacity) seg with ⟨hnone, -⟩ | ⟨isn, hisn, hr⟩
  · rw [hlearn] at hnone
    cases hnone
  · obtain rfl := Option.some.inj (hisn.symm.trans hlearn)
    dsimp only at hr
    rw [hstart] at hr
    rcases hr with ⟨hout | hzero, -⟩ | ⟨-, hr⟩
    · refine absurd ?_ hout
      change 0 < 0 + (capacity - 0) ∧ 0 < 0 + seg.lengthInSequenceSpace
      omega
    · omega
    · exact ⟨_, by rw [hr]; rfl⟩

namespace TCPConnection

variable {c : TCPConnection} {op : ConnectionOp}

/-- **The advertised window is sound**: an appended segment with the ACK flag advertises no more
than the window, and nothing only if there is no window. -/
def AdvertisesSoundly (c : TCPConnection) (op : ConnectionOp) : Prop :=
  ∀ seg ∈ c.appendedBy op, seg.header.ack = true →
    seg.header.win.toNat ≤ (c.step op).receiver.windowSize ∧
      (seg.header.win = 0 → (c.step op).receiver.windowSize = 0)

/-- The window field of an appended segment with the ACK flag is the narrowed window. -/
theorem Orderly.win_of_mem_appendedBy (h : c.Orderly) {seg : TCPSegment}
    (hseg : seg ∈ c.appendedBy op) (hack : seg.header.ack = true) :
    seg.header.win = UInt16.ofNat (c.step op).receiver.windowSize := by
  rw [step_receiver_windowSize]
  rcases h.mem_appendedBy hseg with ⟨seg₀, hunstamped, rfl⟩ | ⟨-, seg₀, rfl⟩
  · exact ((c.received op).stamp_fields hunstamped).2.2 hack
  · rfl

theorem received_capacity : (c.received op).streamOut.capacity = c.receiver.streamOut.capacity := by
  cases op with
  | segmentReceived stale seg =>
    simp only [received]
    cases c.path seg with
    | answered => exact TCPReceiver.segmentReceived_capacity
    | simultaneous => exact TCPReceiver.segmentReceived_capacity
    | exchanged => exact TCPReceiver.segmentReceived_capacity
    | _ => rfl
  | _ => rfl

theorem step_receiver_capacity (c : TCPConnection) (op : ConnectionOp) :
    (c.step op).receiver.streamOut.capacity = c.receiver.streamOut.capacity := by
  rw [step_eq, Ending.apply_receiver]
  split_ifs
  · exact received_capacity
  · exact received_capacity

/-- A window that fits its field is advertised as it is. -/
theorem Orderly.advertisesSoundly (h : c.Orderly) (hcap : c.receiver.streamOut.capacity < 2 ^ 16)
    (op : ConnectionOp) : c.AdvertisesSoundly op := by
  intro seg hseg hack
  have hle : (c.step op).receiver.windowSize ≤ c.receiver.streamOut.capacity := by
    have hcapacity := step_receiver_capacity c op
    rw [← hcapacity]
    exact Nat.sub_le _ _
  have hwin : seg.header.win.toNat = (c.step op).receiver.windowSize := by
    rw [h.win_of_mem_appendedBy hseg hack, UInt16.toNat_ofNat', Nat.mod_eq_of_lt (by omega)]
  refine ⟨hwin.le, fun hzero => ?_⟩
  rw [← hwin, hzero]
  rfl

/-- **The answer to the first SYN**: with `data` on it, the window is the rest of the capacity. -/
theorem new_step_syn (cfg : TCPConfig) (randomIsn : WrappingInt32) (data : List UInt8)
    (hcap : 0 < cfg.recvCapacity) (hlen : data.length ≤ cfg.recvCapacity) :
    let c := new cfg randomIsn
    let op : ConnectionOp := .segmentReceived {} { header := { syn := true }, payload := data }
    (c.step op).receiver.windowSize = cfg.recvCapacity - data.length ∧
      ∃ seg ∈ c.appendedBy op, seg.header.ack = true := by
  intro c op
  have hwf := StreamReassembler.wellFormed_new hcap
  obtain ⟨eof, hout⟩ := TCPReceiver.segmentReceived_first_syn hcap
    { header := { syn := true }, payload := data } rfl
  have hreceived : (c.received op).streamOut =
      ((StreamReassembler.new cfg.recvCapacity).pushSubstring data 0 eof).output := hout
  constructor
  · rw [step_receiver_windowSize, TCPReceiver.windowSize, hreceived, ByteStream.remainingCapacity,
      StreamReassembler.pushSubstring_output_capacity,
      (hwf.pushSubstring data 0 eof).output.size_eq, hwf.pushSubstring_output_buffer,
      List.length_append, StreamReassembler.delivered_new_length hlen]
    simp [StreamReassembler.new, ByteStream.new]
  · -- the own SYN, with the acknowledgment of the other
    refine ⟨(c.received op).stamp (c.sender.numbered { header := { syn := true } }), ?_, ?_⟩
    · rw [appendedBy_eq]
      exact List.mem_singleton.mpr rfl
    · refine ((c.received op).stamp_fields rfl).1.mpr ?_
      rw [TCPReceiver.ackno_isSome_iff]
      exact congrArg Option.isSome TCPReceiver.segmentReceived_isn

end TCPConnection

/-- **When the advertised window is sound.** In every run of a connection, whatever arrives, the
window field of each appended segment with the ACK flag is at most the window, and zero only if the
window is, exactly for those configurations whose receiving capacity fits the 16 bits of the
field. -/
theorem advertised_window_sound_iff (cfg : TCPConfig) :
    (∀ randomIsn ops, Run.Always TCPConnection.step TCPConnection.AdvertisesSoundly
      (TCPConnection.new cfg randomIsn) ops) ↔ cfg.recvCapacity < 2 ^ 16 := by
  constructor
  · intro hsound
    by_contra hcap
    -- fill the window to a multiple of `2 ^ 16`
    obtain ⟨hwindow, seg, hseg, hack⟩ := TCPConnection.new_step_syn cfg ⟨0⟩
      (List.replicate (cfg.recvCapacity % 2 ^ 16) 0) (by omega) (by
        rw [List.length_replicate]
        exact Nat.mod_le _ _)
    rw [List.length_replicate] at hwindow
    have hwin : seg.header.win = 0 := by
      rw [(TCPConnection.orderly_new cfg ⟨0⟩).win_of_mem_appendedBy hseg hack, hwindow,
        ← UInt16.toNat_inj, UInt16.toNat_ofNat']
      simp only [UInt16.toNat_zero]
      omega
    have hzero := ((hsound ⟨0⟩ [_]).1 seg hseg hack).2 hwin
    omega
  · intro hcap randomIsn ops
    exact Run.always_of_preserved
      (I := fun c : TCPConnection =>
        c.Orderly ∧ c.receiver.streamOut.capacity = cfg.recvCapacity)
      (fun _ op h => ⟨h.1.step op, (TCPConnection.step_receiver_capacity _ op).trans h.2⟩)
      (fun _ op h => h.1.advertisesSoundly (h.2.symm ▸ hcap) op)
      ⟨TCPConnection.orderly_new cfg randomIsn, rfl⟩ ops

/-- **A window of `65536` bytes is advertised as none.** -/
theorem advertised_window_unsound :
    let c := TCPConnection.new { recvCapacity := 65536 } ⟨0⟩
    let op : ConnectionOp := .segmentReceived {} { header := { syn := true } }
    (c.step op).receiver.windowSize = 65536 ∧
      ∃ seg ∈ c.appendedBy op, seg.header.ack = true ∧ seg.header.win = 0 := by
  intro c op
  obtain ⟨hwindow, seg, hseg, hack⟩ :=
    TCPConnection.new_step_syn { recvCapacity := 65536 } ⟨0⟩ [] (by decide) (Nat.zero_le _)
  refine ⟨hwindow, seg, hseg, hack, ?_⟩
  rw [(TCPConnection.orderly_new _ _).win_of_mem_appendedBy hseg hack, hwindow]
  rfl

end Sponge
