import FixEngine.Lib.Runs
import FixEngine.Session.Outcomes

/-!
# Steps and runs of a session

What the inputs other than frames can do, and the rule by which a property of single `dispatch`
calls becomes one of whole frames, the drain of the recovery cache included. Conditions on a run
are conditions on each call of `dispatch` in it: `EachDispatch`.
-/

namespace FixEngine

namespace Session

/-- What a session reads from a frame. -/
def viewOf (wire : Bytes) : ValidMessageView := makeValidMessageView (Parser.parse wire).1

/-- The MsgSeqNum of a frame. -/
def numberOf (wire : Bytes) : ℕ := (viewOf wire).headerCache.msgSeqNum

section EachDispatch

variable (condition : Session → Message → Prop)

/-- The condition holds at every `dispatch` made by the drain loop. -/
def EachDrain : ℕ → Session → Prop
  | 0, _ => True
  | rounds + 1, session =>
      session.recoveryCache.contains session.seqProvider.nextIn = true →
      (Parser.parse (session.recoveryCache.get session.seqProvider.nextIn)).2 = [] →
        condition session
            (Parser.parse (session.recoveryCache.get session.seqProvider.nextIn)).1 ∧
          EachDrain rounds (session.drainOne
            (Parser.parse (session.recoveryCache.get session.seqProvider.nextIn)).1
            (session.recoveryCache.get session.seqProvider.nextIn))

/-- The condition holds at every `dispatch` made while a frame is processed. -/
def EachDispatch (session : Session) (wire : Bytes) : Prop :=
  ((Parser.parse wire).2 = [] → condition session (Parser.parse wire).1) ∧
    ((session.receive wire).state = .recoveringResend →
      EachDrain condition (RecoveryCache.window + 1) (session.receive wire))

/-- One condition for the `dispatch` of the frame itself, another for those of the drain. -/
def EachCall (live drained : Session → Message → Prop) (session : Session) (wire : Bytes) : Prop :=
  ((Parser.parse wire).2 = [] → live session (Parser.parse wire).1) ∧
    ((session.receive wire).state = .recoveringResend →
      EachDrain drained (RecoveryCache.window + 1) (session.receive wire))

end EachDispatch

section FrameRule

variable {condition : Session → Message → Prop} {session : Session}

/-- The rule for the drain loop: `Inside` holds between its rounds, `Outside` at its end. -/
theorem drainLoop_rule {Inside Outside : Session → Prop}
    (round : ∀ session raw, (Parser.parse raw).2 = [] → Inside session →
      condition session (Parser.parse raw).1 → Inside (session.drainOne (Parser.parse raw).1 raw))
    (exit : ∀ session, Inside session → Outside session)
    (activate : ∀ session, Inside session → Outside (session.withState .active))
    (endless : ∀ session, Inside session → Outside (session.recordFault .endlessDrain))
    (abort : ∀ session, Inside session →
      Outside (session.sendLogout (ascii "Parse error during recovery")).stop)
    {rounds : ℕ} (inside : Inside session) (each : EachDrain condition rounds session) :
    Outside (drainLoop rounds session) := by
  induction rounds generalizing session with
  | zero => exact endless _ inside
  | succ rounds ih =>
      simp only [drainLoop]
      split
      · next present =>
          split
          · next parsed =>
              obtain ⟨here, rest⟩ := each present parsed
              exact ih (round _ _ parsed inside here) rest
          · exact abort _ inside
      · split
        · exact activate _ inside
        · exact exit _ inside

/-- The rule for a whole frame. -/
theorem processWireMessage_rule (Inv Inside : Session → Prop) {wire : Bytes}
    (dispatched : (Parser.parse wire).2 = [] → Inv session →
      condition session (Parser.parse wire).1 → Inv (session.dispatch (Parser.parse wire).1 wire))
    (refused : Inv session → Inv (session.stopWithLogout (ascii "Parse error")))
    (enter : ∀ session, Inv session → session.state = .recoveringResend → Inside session)
    (round : ∀ session raw, (Parser.parse raw).2 = [] → Inside session →
      condition session (Parser.parse raw).1 → Inside (session.drainOne (Parser.parse raw).1 raw))
    (exit : ∀ session, Inside session → Inv session)
    (activate : ∀ session, Inside session → Inv (session.withState .active))
    (endless : ∀ session, Inside session → Inv (session.recordFault .endlessDrain))
    (abort : ∀ session, Inside session →
      Inv (session.sendLogout (ascii "Parse error during recovery")).stop)
    (inv : Inv session) (each : EachDispatch condition session wire) :
    Inv (session.processWireMessage wire) := by
  have received : Inv (session.receive wire) := by
    simp only [receive]
    split
    · next parsed => exact dispatched parsed inv (each.1 parsed)
    · exact refused inv
  rw [processWireMessage, drainRecoveryCache]
  split
  · exact received
  · next draining =>
      simp only [Bool.or_eq_true, decide_eq_true_eq, not_or, not_not] at draining
      exact drainLoop_rule round exit activate endless abort (enter _ received draining.2)
        (each.2 draining.2)

end FrameRule

section OtherInputs

variable {session : Session}

/-- What an input other than a frame can do. -/
inductive IdleOutcome (session : Session) (after : Session) : Prop
  | quiet (keeps : Keeps session after)
  | connected (conn : ℕ) (after_eq : after = session.setConnection conn)
  | loggedOut (keeps : Keeps (session.withState .awaitingLogout) after)
  | stopped (keeps : Keeps session.asStopped after)
  | down (released : Session) (keeps : Keeps session released)
      (after_eq : after = released.disconnect.record .reconnectRequested)
  | started (state : SessionState) (waits : state = .logonSent ∨ state = .awaitingLogon)
      (keeps : Keeps ((session.record (.started .normal)).withState state) after)
  | renumbered (isInitiator : session.role = .initiator)
      (configured : session.params.initiatorResetOnLogon = true)
      (reading : Session) (keepsReading : Keeps (session.record (.started .normal)) reading)
      (keeps : Keeps ((reading.resetSequence reading.seqProvider.reset).withState .logonSent) after)
  | restarted (running : session.stopped = false) (state : SessionState)
      (waits : state = .logonSent ∨ state = .awaitingLogon)
      (keeps : Keeps ((session.record (.started .reconnect)).cleanUp.withState state) after)

theorem onTransportDown_outcome (session : Session) :
    IdleOutcome session session.onTransportDown := by
  rw [onTransportDown]
  split
  · exact .quiet (.refl _)
  split
  · exact .quiet (.refl _)
  · exact .down _ ((keeps_closeConnection _).trans (keeps_cancelTimers _)) rfl

theorem onWrite_outcome (session : Session) (result : Except IoError ℕ) :
    IdleOutcome session (session.onWrite result) := by
  have requeued : ∀ writeQ, Keeps session { session with writeQ := writeQ } := fun _ =>
    ⟨rfl, rfl, rfl, rfl, rfl, rfl, rfl, rfl, rfl, [], by simp⟩
  simp only [onWrite]
  split
  · exact .quiet (.refl _)
  split
  · exact .quiet (.refl _)
  · exact .quiet session.keeps_doWrite
  · exact session.onTransportDown_outcome
  · split
    · exact .quiet (session.keeps_recordFault _)
    · exact .quiet ((requeued _).trans (keeps_doWrite _))

theorem onRead_error_outcome (session : Session) (error : IoError) :
    IdleOutcome session (session.onRead (.error error)) := by
  simp only [onRead]
  split
  · exact .quiet (.refl _)
  cases error with
  | aborted => exact .quiet (.refl _)
  | transient => exact .quiet session.keeps_doRead
  | down => exact session.onTransportDown_outcome

theorem onInboundTimer_outcome (session : Session) :
    IdleOutcome session session.onInboundTimer := by
  have expecting : Keeps session session.expectResponse :=
    ⟨rfl, rfl, rfl, rfl, rfl, rfl, rfl, rfl, rfl, [], by simp [expectResponse]⟩
  rw [onInboundTimer]
  split
  · exact .quiet (.refl _)
  next running =>
  split
  · exact .loggedOut (keeps_stopWithLogout (by simpa using running) _)
  · exact .quiet ((expecting.trans (keeps_sendTestRequest _ _)).trans
      (keeps_scheduleTestRequestTimeout _))

theorem stop_outcome (session : Session) : IdleOutcome session session.stop := by
  cases running : session.stopped with
  | true => exact .quiet (by rw [stop_eq_self running]; exact .refl _)
  | false => exact .stopped (keeps_stop running)

theorem startNormal_outcome (session : Session) : IdleOutcome session session.startNormal := by
  rw [startNormal]
  split
  · exact .quiet (.refl _)
  have reading := keeps_doRead (session.record (.started .normal))
  cases role : session.role with
  | acceptor =>
      exact .started .awaitingLogon (.inr rfl)
        ((reading.withState _).trans (keeps_scheduleLogonTimeout _ _))
  | initiator =>
      have paramsEq : (session.record (.started .normal)).doRead.params = session.params :=
        reading.params_eq
      by_cases configured : session.params.initiatorResetOnLogon = true
      · refine .renumbered role configured _ reading ?_
        simp only [paramsEq, configured, if_true]
        exact ((keeps_sendLogon _ _).withState _).trans (keeps_scheduleLogonTimeout _ _)
      · refine .started .logonSent (.inl rfl) ?_
        simp only [paramsEq, configured, if_false, Bool.false_eq_true]
        exact ((reading.trans (keeps_sendLogon _ _)).withState _).trans
          (keeps_scheduleLogonTimeout _ _)

theorem startAfterReconnect_outcome (session : Session) :
    IdleOutcome session session.startAfterReconnect := by
  rw [startAfterReconnect]
  split
  · exact .quiet (.refl _)
  split
  · exact .quiet (.refl _)
  next running =>
  have isRunning : session.stopped = false := by simpa using running
  cases session.role with
  | acceptor =>
      exact .restarted isRunning .awaitingLogon (.inr rfl)
        ((keeps_scheduleLogonTimeout _ _).trans (keeps_doRead _))
  | initiator =>
      exact .restarted isRunning .logonSent (.inl rfl)
        ((((keeps_sendLogon _ _).withState _).trans (keeps_scheduleLogonTimeout _ _)).trans
          (keeps_doRead _))

/-- Everything but a frame. -/
theorem step_outcome (session : Session) {input : Input} (notFrame : ∀ wire, input ≠ .frame wire) :
    IdleOutcome session (session.step input) := by
  cases input with
  | frame wire => exact absurd rfl (notFrame wire)
  | sendFromApp message msgType => exact .quiet (session.keeps_sendFromApp message msgType)
  | heartbeatTimer =>
      simp only [step, onHeartbeatTimer]
      split
      · exact .quiet (.refl _)
      · exact .quiet ((keeps_sendHeartbeat _ _).trans (keeps_scheduleHeartbeat _))
  | inboundTimer => exact session.onInboundTimer_outcome
  | logonTimer expected =>
      simp only [step, onLogonTimer]
      split
      · exact .quiet (.refl _)
      split
      · exact session.stop_outcome
      · exact .quiet (.refl _)
  | logoutTimer =>
      simp only [step, onLogoutTimer]
      split
      · exact .quiet (.refl _)
      · exact session.stop_outcome
  | writeDone result => exact session.onWrite_outcome result
  | readFailed error => exact session.onRead_error_outcome error
  | setConnection conn => exact .connected conn rfl
  | start mode =>
      cases mode with
      | normal => exact session.startNormal_outcome
      | reconnect => exact session.startAfterReconnect_outcome
  | stop => exact session.stop_outcome

end OtherInputs

section Example

/-- A message of the peer with the given number. -/
def peerWire (type : Bytes) (seqNum : ℕ) (fields : List Field) : Bytes :=
  wireOf fix44 ([⟨35, type⟩, ⟨34, decimal seqNum⟩, ⟨49, ascii "B"⟩, ⟨56, ascii "A"⟩,
    ⟨52, ascii "Now"⟩] ++ fields)

/-- A Heartbeat of the peer. -/
def peerHeartbeat (seqNum : ℕ) : Bytes := peerWire (ascii "0") seqNum []

/-- An initiator before it is started. -/
def initiator : Session := Session.new 0 .initiator
  { senderCompId := ascii "A", targetCompId := ascii "B" } .standard

/-- The initiator is connected and its Logon is answered. -/
def answeredLogon : List Input :=
  [.setConnection 0, .start .normal,
    .frame (peerWire (ascii "A") 1 [⟨98, ascii "0"⟩, ⟨108, ascii "30"⟩])]

end Example

end Session

end FixEngine
