import FixEngine.Session.Operations
import FixEngine.Session.Runs

/-!
# Rejected messages

`dispatch` answers an invalid message with a Reject and returns before the number of the message
is looked at. So the message is not consumed: the next one in the stream looks like a gap, and the
peer is asked for the message that was just rejected.
-/

namespace FixEngine

namespace Session

/-- No ResendRequest is sent between the two. -/
def Unrequested (before after : Session) : Prop :=
  ∃ types, sentTypes after.trace = sentTypes before.trace ++ types ∧ ascii "2" ∉ types

/-- A frame uses up its number, and a frame with the following number is no gap. -/
def Consumes (session : Session) (wire : Bytes) : Prop :=
  session.seqProvider.nextIn + 1 ≤ (session.processWireMessage wire).seqProvider.nextIn ∧
    ∀ next, numberOf next = session.seqProvider.nextIn + 1 →
      ((session.processWireMessage wire).processWireMessage next).state ≠ .recoveringResend ∧
        Unrequested (session.processWireMessage wire)
          ((session.processWireMessage wire).processWireMessage next)

section Requests

variable {session before after : Session} {message : Message} {raw : Bytes}

theorem type_of_noResend {type : Bytes} (resendable : ResendStream.noResend type = false) :
    type ≠ ascii "2" := by
  rintro rfl
  exact absurd resendable (by decide)

/-- Only a number ahead of the expected one makes `dispatch` ask for a resend. -/
theorem type_of_replies {outgoing : Outgoing} (replies : Replies session message raw outgoing)
    (notAhead : (makeValidMessageView message).headerCache.msgSeqNum ≤ session.seqProvider.nextIn) :
    outgoing.type ≠ ascii "2" := by
  cases replies with
  | logon resetSeqNums => exact (by decide : ascii "A" ≠ ascii "2")
  | reject error found => exact (by decide : ascii "3" ≠ ascii "2")
  | logout reason fixed => exact (by decide : ascii "5" ≠ ascii "2")
  | tooLow type admitted behind unmarked => exact (by decide : ascii "5" ≠ ascii "2")
  | heartbeat testReqId found => exact (by decide : ascii "0" ≠ ascii "2")
  | resendRequest type admitted ahead => exact absurd ahead (Nat.not_lt.mpr notAhead)
  | custom => exact (by decide : MessageFactory.customType ≠ ascii "2")
  | gapFill msgSeqNum newSeqNo => exact (by decide : ascii "4" ≠ ascii "2")
  | stored admitted index mem resendable => exact type_of_noResend resendable

theorem Unrequested.performs {permits : Outgoing → Prop} (performs : Performs permits before after)
    (others : ∀ outgoing, permits outgoing → outgoing.type ≠ ascii "2") :
    Unrequested before after := by
  refine performs.invariant ?_ ?_ ?_ ⟨[], by simp⟩
  · intro earlier later calm ⟨types, typesEq, absent⟩
    refine ⟨types, ?_, absent⟩
    rw [sentTypes_eq, calm.sentMessages_eq, ← sentTypes_eq]
    exact typesEq
  · intro earlier outgoing permitted ⟨types, typesEq, absent⟩
    rw [sentTypes_eq] at typesEq
    rw [Unrequested, sentTypes_eq, sentMessages_send, List.map_append, typesEq]
    cases earlier.stopped with
    | true => exact ⟨types, by simp, absent⟩
    | false =>
        refine ⟨types ++ [outgoing.type], by simp, ?_⟩
        simp only [List.mem_append, List.mem_singleton, not_or]
        exact ⟨absent, fun same => others outgoing permitted same.symm⟩
  · intro earlier unrequested
    rw [Unrequested, trace_stop]
    exact unrequested

/-- A number that is not ahead begins no recovery. -/
theorem dispatch_not_recovering (settled : session.state ≠ .recoveringResend)
    (notAhead : (makeValidMessageView message).headerCache.msgSeqNum ≤ session.seqProvider.nextIn) :
    (session.dispatch message raw).state ≠ .recoveringResend := by
  cases session.dispatch_effect message raw with
  | stopped isStopped afterEq =>
      rw [afterEq]
      exact settled
  | quiet running keeps =>
      rw [keeps.state_eq]
      exact settled
  | loggedOut running refuses keeps =>
      rw [keeps.state_eq]
      exact (by decide : SessionState.awaitingLogout ≠ .recoveringResend)
  | handled running type admitted turn ready keeps afterEq =>
      intro recovering
      rw [afterEq] at recovering
      have outcome := handle_outcome
        (ready.updateIn ((makeValidMessageView message).headerCache.msgSeqNum + 1))
        (keeps.stopped_eq.trans running) type (makeValidMessageView message)
      have here : ready.state = .recoveringResend := outcome.recovering recovering
      exact settled (keeps.state_eq.symm.trans here)
  | cached running type admitted ahead recovering within absent ready keeps afterEq =>
      exact absurd recovering settled
  | gap running type admitted ahead notRecovering requested keeps afterEq =>
      exact absurd ahead (Nat.not_lt.mpr notAhead)

theorem unrequested_processWireMessage {wire : Bytes} (settled : session.state ≠ .recoveringResend)
    (notAhead : numberOf wire ≤ session.seqProvider.nextIn) :
    (session.processWireMessage wire).state ≠ .recoveringResend ∧
      Unrequested session (session.processWireMessage wire) := by
  have received : (session.receive wire).state ≠ .recoveringResend ∧
      Unrequested session (session.receive wire) := by
    simp only [receive]
    split
    · exact ⟨dispatch_not_recovering settled notAhead,
        Unrequested.performs (session.performs_dispatch _ _)
          fun outgoing replies => type_of_replies replies notAhead⟩
    · refine ⟨?_, ?_⟩
      · rw [stopWithLogout]
        split
        · exact settled
        · exact (by decide : SessionState.awaitingLogout ≠ .recoveringResend)
      · apply Unrequested.performs
          (@performs_stopWithLogout (· = .logout (ascii "Parse error")) session _ rfl)
        rintro outgoing rfl
        exact (by decide : ascii "5" ≠ ascii "2")
  have undrained : session.processWireMessage wire = session.receive wire := by
    rw [processWireMessage, drainRecoveryCache, if_pos]
    simp [received.1]
  rw [undrained]
  exact received

end Requests

section Consumes

variable {session : Session} {wire : Bytes}

theorem msgType_of_noErrors {message : Message} (noErrors : (session.results message).errors = []) :
    ∃ type, (makeValidMessageView message).headerCache.msgType = some type := by
  cases typeEq : (makeValidMessageView message).headerCache.msgType with
  | some type => exact ⟨type, rfl⟩
  | none => simp [results, Validator.validateMessage, typeEq, Validator.pushError] at noErrors

/-- In an active session a frame that is not drained is just dispatched. -/
theorem processWireMessage_of_settled (parsed : (Parser.parse wire).2 = [])
    (settled : (session.dispatch (Parser.parse wire).1 wire).state ≠ .recoveringResend) :
    session.processWireMessage wire = session.dispatch (Parser.parse wire).1 wire := by
  have receiveEq : session.receive wire = session.dispatch (Parser.parse wire).1 wire := by
    simp only [receive, parsed, if_true]
  rw [processWireMessage, receiveEq, drainRecoveryCache, if_pos]
  simp [settled]

/-- A valid message whose turn it is, of a type that moves no numbers itself. -/
theorem dispatch_consumes {message : Message} {type : Bytes} (raw : Bytes)
    (running : session.stopped = false) (active : session.state = .active)
    (accepts : session.Accepts message type)
    (turn : (makeValidMessageView message).headerCache.msgSeqNum = session.seqProvider.nextIn)
    (plain : type ≠ ascii "A" ∧ type ≠ ascii "5" ∧ type ≠ ascii "4") :
    (session.dispatch message raw).seqProvider.nextIn =
        (session.seqProvider.nextIn + 1) % word64 ∧
      (session.dispatch message raw).state = .active := by
  have admitted : session.Admitted message type :=
    ⟨accepts, fun _ => by simp [established, active]⟩
  rcases dispatch_admitted running admitted raw with ⟨ready, keeps, dispatchEq⟩
  have handled : ready.checkSequence type (makeValidMessageView message) raw =
      (ready.updateIn ((makeValidMessageView message).headerCache.msgSeqNum + 1)).handle type
        (makeValidMessageView message) := by
    simp only [checkSequence, turn, keeps.nextIn_eq, if_true]
  rw [dispatchEq, handled]
  have outcome := handle_outcome
    (ready.updateIn ((makeValidMessageView message).headerCache.msgSeqNum + 1))
    (keeps.stopped_eq.trans running) type (makeValidMessageView message)
  cases outcome with
  | quiet keepsCalled =>
      refine ⟨?_, ?_⟩
      · rw [keepsCalled.nextIn_eq, ← turn]
        rfl
      · rw [keepsCalled.state_eq]
        exact keeps.state_eq.trans active
  | refused refuses interval keepsCalled =>
      rcases refuses with ⟨isLogon, -⟩ | ⟨isReset, -⟩
      · exact absurd isLogon plain.1
      · exact absurd isReset plain.2.2
  | loggedOn isLogon => exact absurd isLogon plain.1
  | renumbered isLogon => exact absurd isLogon plain.1
  | stopped isLogout => exact absurd isLogout plain.2.1
  | moved isReset => exact absurd isReset plain.2.2

/-- A message of the expected number that is not fatal is consumed exactly when it is valid, the
session is not stopped, and the next number can be counted. -/
theorem consumes_iff_valid (session : Session) (wire : Bytes) (active : session.state = .active)
    (parsed : (Parser.parse wire).2 = [])
    (numbered : (viewOf wire).headerCache.hasMsgSeqNum = true)
    (turn : numberOf wire = session.seqProvider.nextIn)
    (notFatal : (session.results (Parser.parse wire).1).severity ≠ .fatal)
    (plain : ∀ type ∈ [ascii "A", ascii "5", ascii "4"],
      (viewOf wire).headerCache.msgType ≠ some type) :
    session.Consumes wire ↔
      session.stopped = false ∧ (session.results (Parser.parse wire).1).errors = [] ∧
        session.seqProvider.nextIn + 1 < word64 := by
  have settled : session.state ≠ .recoveringResend := by simp [active]
  have dispatched : session.processWireMessage wire =
      session.dispatch (Parser.parse wire).1 wire :=
    processWireMessage_of_settled parsed (dispatch_not_recovering settled turn.le)
  by_cases valid : session.stopped = false ∧ (session.results (Parser.parse wire).1).errors = []
  · rcases valid with ⟨running, noErrors⟩
    rcases msgType_of_noErrors noErrors with ⟨type, typeEq⟩
    have others : type ≠ ascii "A" ∧ type ≠ ascii "5" ∧ type ≠ ascii "4" := by
      refine ⟨?_, ?_, ?_⟩
      · rintro rfl
        exact plain _ (by simp) typeEq
      · rintro rfl
        exact plain _ (by simp) typeEq
      · rintro rfl
        exact plain _ (by simp) typeEq
    have consumed := dispatch_consumes wire running active
      ⟨notFatal, noErrors, typeEq, numbered⟩ turn others
    rw [← dispatched] at consumed
    constructor
    · intro consumes
      refine ⟨running, noErrors, ?_⟩
      have next := consumes.1
      rw [consumed.1] at next
      have small : (session.seqProvider.nextIn + 1) % word64 < word64 := Nat.mod_lt _ (by decide)
      omega
    · rintro ⟨-, -, room⟩
      have next : (session.processWireMessage wire).seqProvider.nextIn =
          session.seqProvider.nextIn + 1 := by
        rw [consumed.1, Nat.mod_eq_of_lt room]
      refine ⟨next.ge, ?_⟩
      intro following number
      apply unrequested_processWireMessage
      · simp [consumed.2]
      · rw [number, next]
  · have unconsumed : (session.processWireMessage wire).seqProvider.nextIn =
        session.seqProvider.nextIn := by
      rw [dispatched]
      cases session.dispatch_outcome (Parser.parse wire).1 wire with
      | stopped isStopped afterEq => rw [afterEq]
      | quiet running _ _ keeps => exact keeps.nextIn_eq
      | refused running why keeps => exact keeps.nextIn_eq
      | checked running type accepts => exact absurd ⟨running, accepts.noErrors⟩ valid
    constructor
    · intro consumes
      have next := consumes.1
      omega
    · rintro ⟨running, noErrors, -⟩
      exact absurd ⟨running, noErrors⟩ valid

end Consumes

section Example

theorem consumes_heartbeat :
    (initiator.run answeredLogon).Consumes (peerHeartbeat 2) :=
  (consumes_iff_valid (initiator.run answeredLogon) (peerHeartbeat 2) (by decide +kernel)
    (by decide +kernel) (by decide +kernel) (by decide +kernel) (by decide +kernel)
    (by decide +kernel)).mpr ⟨by decide +kernel, by decide +kernel, by decide +kernel⟩

/-- A TestRequest without its TestReqID is rejected, and the heartbeat after it is a gap. -/
theorem rejected_unconsumed :
    let session := initiator.run answeredLogon
    let invalid := peerWire (ascii "1") 2 []
    session.state = .active ∧ session.stopped = false ∧ session.seqProvider.nextIn = 2 ∧
      (Parser.parse invalid).2 = [] ∧ numberOf invalid = 2 ∧
      (session.results (Parser.parse invalid).1).severity ≠ .fatal ∧
      (viewOf invalid).headerCache.msgType = some (ascii "1") ∧
      (session.processWireMessage invalid).seqProvider.nextIn = 2 ∧
      sentTypes (session.processWireMessage invalid).trace = [ascii "A", ascii "3"] ∧
      numberOf (peerHeartbeat 3) = 3 ∧
      ((session.processWireMessage invalid).processWireMessage (peerHeartbeat 3)).state =
        .recoveringResend ∧
      sentTypes ((session.processWireMessage invalid).processWireMessage (peerHeartbeat 3)).trace =
        [ascii "A", ascii "3", ascii "2"] := by
  decide +kernel

end Example

end Session

end FixEngine
