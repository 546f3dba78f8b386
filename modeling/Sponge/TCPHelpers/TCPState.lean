import Mathlib.Tactic
import Sponge.TCPConnection

/-!
# The official states

`TCPState` compares a connection with the states of the TCP specification. A connection stores no
such state: its two halves are summarised separately, and the summaries and the two flags of the
connection are compared with those that belong to an official state.

## Main definitions

* `TCPReceiver.stateSummary`, `TCPSender.stateSummary`: the summaries of the two halves
* `TCPState`, `TCPState.ofState`, `TCPState.new`: the two constructors
* `TCPState.Official`: the state is one of the twelve of the specification
* `TCPConnection.state`: the state of a connection

## Main results

* `TCPState.official_iff`: the twelve states, by the summary of the receiver
-/

namespace Sponge

/-- The constants of `TCPReceiverStateSummary`. -/
inductive TCPReceiverStateSummary where
  /-- error (connection was reset) -/
  | error
  /-- waiting for SYN: ackno is empty -/
  | listen
  /-- SYN received (ackno exists), and input to stream hasn't ended -/
  | synRecv
  /-- input to stream has ended -/
  | finRecv
  deriving DecidableEq, Repr

/-- The constants of `TCPSenderStateSummary`. -/
inductive TCPSenderStateSummary where
  /-- error (connection was reset) -/
  | error
  /-- waiting for stream to begin (no SYN sent) -/
  | closed
  /-- stream started but nothing acknowledged -/
  | synSent
  /-- stream ongoing -/
  | synAcked
  /-- stream finished (FIN sent) but not fully acknowledged -/
  | finSent
  /-- stream finished and fully acknowledged -/
  | finAcked
  deriving DecidableEq, Repr

/-- `TCPState::state_summary` of a receiver. -/
def TCPReceiver.stateSummary (r : TCPReceiver) : TCPReceiverStateSummary :=
  if r.streamOut.error then .error
  else if r.ackno.isNone then .listen
  else if r.streamOut.inputEnded then .finRecv
  else .synRecv

/-- `TCPState::state_summary` of a sender. -/
def TCPSender.stateSummary (s : TCPSender) : TCPSenderStateSummary :=
  if s.stream.error then .error
  else if s.nextSeqno = 0 then .closed
  else if s.nextSeqno = s.bytesInFlight then .synSent
  else if !s.stream.eof then .synAcked
  else if s.nextSeqno < s.stream.bytesWritten + 2 then .synAcked
  else if s.bytesInFlight ≠ 0 then .finSent
  else .finAcked

/-- `TCPState` of `tcp_state.hh`. -/
structure TCPState where
  sender : TCPSenderStateSummary
  receiver : TCPReceiverStateSummary
  active : Bool := true
  lingerAfterStreamsFinish : Bool := true
  deriving DecidableEq, Repr

namespace TCPState

/-- The official names of the states. -/
inductive State where
  | listen
  | synRcvd
  | synSent
  | established
  | closeWait
  | lastAck
  | finWait1
  | finWait2
  | closing
  | timeWait
  | closed
  | reset
  deriving DecidableEq, Repr

instance : Fintype State where
  elems := {.listen, .synRcvd, .synSent, .established, .closeWait, .lastAck, .finWait1, .finWait2,
    .closing, .timeWait, .closed, .reset}
  complete := by
    intro state
    cases state <;> decide

/-- The constructor from an official name. -/
def ofState : State → TCPState
  | .listen => { receiver := .listen, sender := .closed }
  | .synRcvd => { receiver := .synRecv, sender := .synSent }
  | .synSent => { receiver := .listen, sender := .synSent }
  | .established => { receiver := .synRecv, sender := .synAcked }
  | .closeWait =>
    { receiver := .finRecv, sender := .synAcked, lingerAfterStreamsFinish := false }
  | .lastAck => { receiver := .finRecv, sender := .finSent, lingerAfterStreamsFinish := false }
  | .closing => { receiver := .finRecv, sender := .finSent }
  | .finWait1 => { receiver := .synRecv, sender := .finSent }
  | .finWait2 => { receiver := .synRecv, sender := .finAcked }
  | .timeWait => { receiver := .finRecv, sender := .finAcked }
  | .reset =>
    { receiver := .error, sender := .error, lingerAfterStreamsFinish := false, active := false }
  | .closed =>
    { receiver := .finRecv, sender := .finAcked, lingerAfterStreamsFinish := false,
      active := false }

/-- The constructor from a sender, a receiver and the two flags of a connection. -/
def new (sender : TCPSender) (receiver : TCPReceiver) (active linger : Bool) : TCPState where
  sender := sender.stateSummary
  receiver := receiver.stateSummary
  active := active
  lingerAfterStreamsFinish := if active then linger else false

/-- The state is one of the twelve of the specification. -/
def Official (s : TCPState) : Prop :=
  ∃ state, s = ofState state

instance (s : TCPState) : Decidable s.Official :=
  inferInstanceAs (Decidable (∃ state, s = ofState state))

/-- **The twelve states**, by the summary of the receiver. -/
theorem official_iff (s : TCPState) :
    s.Official ↔
      match s.receiver with
      | .error => s.sender = .error ∧ s.active = false ∧ s.lingerAfterStreamsFinish = false
      | .listen => (s.sender = .closed ∨ s.sender = .synSent) ∧ s.active = true ∧
          s.lingerAfterStreamsFinish = true
      | .synRecv => (s.sender ≠ .error ∧ s.sender ≠ .closed) ∧ s.active = true ∧
          s.lingerAfterStreamsFinish = true
      | .finRecv =>
        match s.sender with
        | .synAcked => s.active = true ∧ s.lingerAfterStreamsFinish = false
        | .finSent => s.active = true
        | .finAcked => s.active = s.lingerAfterStreamsFinish
        | _ => False := by
  obtain ⟨sender, receiver, active, linger⟩ := s
  cases receiver <;> cases sender <;> cases active <;> cases linger <;> decide

end TCPState

/-- `TCPConnection::state`. -/
def TCPConnection.state (c : TCPConnection) : TCPState :=
  TCPState.new c.sender c.receiver c.active c.lingerAfterStreamsFinish

end Sponge
