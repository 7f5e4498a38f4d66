import FixEngine.Core.Validator
import FixEngine.Core.RecoveryCache

/-!
# The session

`Session` (`core/Session.hpp`, `Session.cpp`): the state machine that speaks FIX over one
connection at a time. Every handler runs on the session's strand, and `stop` and
`stop_with_logout`, dispatched from a handler, run inline; so each handler is a function from
session to session.

Outstanding operations are part of the state: reads and writes given to a connection and not yet
completed, and waits on timers. `trace` records what the session did. A failed assertion, or an
access the source does not check, is recorded there as a fault; what the functions here do after
a fault says nothing about the program.
-/

namespace FixEngine

/-- `SessionState`. -/
inductive SessionState
  | awaitingLogon
  | awaitingLogout
  | logonReceived
  | logonSent
  | recoveringResend
  | active
  | disconnected
  deriving DecidableEq, Repr

/-- `Role`. -/
inductive Role
  | initiator
  | acceptor
  deriving DecidableEq, Repr

/-- `StartMode`. -/
inductive StartMode
  | normal
  | reconnect
  deriving DecidableEq, Repr

/-- What went wrong where the source asserts or relies on something. -/
inductive Fault
  /-- `conn_` is null when a read or write is started. -/
  | noConnection
  /-- A write completed while the queue was empty. -/
  | emptyWriteQueue
  /-- The assertion of `store_outbound_message`. -/
  | storeSequence
  /-- The assertions of `RecoveryCache::insert`. -/
  | cacheInsert
  /-- The assertion of `RecoveryCache::consume`. -/
  | cacheConsume
  /-- A required field is not in the message. -/
  | missingField (tag : ℕ)
  /-- An access outside the store's index. -/
  | storeIndex
  /-- The loop of `drain_recovery_cache_` does not end. -/
  | endlessDrain
  /-- Another loop that does not end. -/
  | endless
  deriving DecidableEq, Repr

/-- The faults of the recovery cache and its drain. -/
def Fault.ofCache : Fault → Bool
  | .cacheInsert => true
  | .cacheConsume => true
  | .endlessDrain => true
  | _ => false

/-- What a session does, as far as the properties of this development speak about it. -/
inductive Event
  /-- `start_normal_` or `start_after_reconnect_` on a connection. -/
  | started (mode : StartMode)
  /-- `send_message_` of a message built with a type. -/
  | sent (type wire : Bytes) (isResend : Bool)
  /-- A handler, or the application sink, is called with a message. -/
  | handled (type : Bytes) (seqNum : ℕ) (message : Message)
  /-- `handle_logon` accepted a Logon. -/
  | logonAccepted
  /-- The sequence numbers were reset. -/
  | seqReset
  | reconnectRequested
  | fault (fault : Fault)
  deriving DecidableEq, Repr

/-- A timer with at most one wait, and the handlers whose wait has ended but that have not run;
cancelling does not reach those. -/
structure Timer (α : Type) where
  waiting : Option α := none
  expired : List α := []

namespace Timer

variable {α : Type}

/-- `cancel()` ends the wait. -/
def cancel (timer : Timer α) : Timer α := { timer with waiting := none }

/-- `expires_after`, which cancels a wait, followed by `async_wait`. -/
def restart (timer : Timer α) (handler : α) : Timer α := { timer with waiting := some handler }

/-- The time of the wait has come. -/
def expire (timer : Timer α) : Timer α :=
  match timer.waiting with
  | some handler => { waiting := none, expired := timer.expired ++ [handler] }
  | none => timer

end Timer

/-- `PendingWrite`, a wire and how much of it is sent. -/
structure PendingWrite where
  data : Bytes
  sent : ℕ := 0
  deriving DecidableEq, Repr

/-- `Session`, with what it refers to outside as a trace of events. -/
structure Session where
  id : ℕ
  role : Role
  params : SessionParameters
  clock : Clock
  state : SessionState := .disconnected
  stopped : Bool := false
  seqProvider : SeqProvider := {}
  scratch : FactoryScratch := {}
  store : MessageStore := .new
  recoveryCache : RecoveryCache := .new
  framer : Framer := .new
  validator : Validator := {}
  writeQ : List PendingWrite := []
  writeInflight : Bool := false
  awaitingTestRequestResponse : Bool := false
  reconnecting : Bool := false
  testReqId : ℕ := 0
  /-- The current connection. -/
  conn : Option ℕ := none
  /-- The connections with an outstanding read. -/
  pendingReads : List ℕ := []
  /-- The outstanding writes: the connection and the bytes offered to it. -/
  pendingWrites : List (ℕ × Bytes) := []
  /-- The connections the session has closed. -/
  closed : List ℕ := []
  logonTimer : Timer SessionState := {}
  inboundTimer : Timer Unit := {}
  heartbeatTimer : Timer Unit := {}
  logoutTimer : Timer Unit := {}
  trace : List Event := []

namespace Session

section Basics

/-- The trace with one more event. -/
def record (session : Session) (event : Event) : Session :=
  { session with trace := session.trace ++ [event] }

/-- A point at which the source reads what is not there, or an assertion fails. -/
def recordFault (session : Session) (fault : Fault) : Session := session.record (.fault fault)

/-- An assignment to `state_`. -/
def withState (session : Session) (state : SessionState) : Session :=
  { session with state := state }

/-- The session with another recovery cache. -/
def withCache (session : Session) (cache : RecoveryCache) : Session :=
  { session with recoveryCache := cache }

/-- The heartbeat interval is taken from a Logon. -/
def withInterval (session : Session) (interval : ℕ) : Session :=
  { session with params := { session.params with heartBeatInt := interval } }

/-- `msg_factory_`, which holds references to the session's members. -/
def msgFactory (session : Session) : MessageFactory :=
  ⟨session.scratch, session.params, session.seqProvider, session.clock⟩

/-- The members after the factory has used them. -/
def withFactory (session : Session) (factory : MessageFactory) : Session :=
  { session with
    scratch := factory.scratch
    params := factory.params
    seqProvider := factory.seqProvider
    clock := factory.clock }

/-- `readable_id`. -/
def readableId (session : Session) : Bytes :=
  session.params.senderCompId ++ ascii "<->" ++ session.params.targetCompId ++ ascii " [" ++
    decimal session.id ++ ascii "]"

/-- Logged on, possibly with a recovery in progress. -/
def established (session : Session) : Bool :=
  session.state = .active || session.state = .recoveringResend

/-- `is_app_message_type_`. -/
def isAppMessageType (type : Bytes) : Bool :=
  !(type = ascii "0" || type = ascii "1" || type = ascii "2" || type = ascii "3" ||
    type = ascii "4" || type = ascii "5" || type = ascii "A")

end Basics

section Io

/-- `do_read`: the connection is asked for data. -/
def doRead (session : Session) : Session :=
  if session.stopped then session
  else
    match session.conn with
    | none => session.recordFault .noConnection
    | some conn => { session with pendingReads := session.pendingReads ++ [conn] }

/-- `do_write`: the front of the queue is handed to the connection. -/
def doWrite (session : Session) : Session :=
  match session.writeQ with
  | [] => { session with writeInflight := false }
  | front :: _ =>
      if session.stopped then session
      else
        match session.conn with
        | none => session.recordFault .noConnection
        | some conn =>
            { session with
              pendingWrites := session.pendingWrites ++ [(conn, front.data.drop front.sent)] }

/-- `send_bytes_`: the wire is queued, and written at once if no write is under way. -/
def sendBytes (session : Session) (data : Bytes) : Session :=
  let queued := { session with writeQ := session.writeQ ++ [⟨data, 0⟩] }
  if queued.writeInflight then queued else { queued with writeInflight := true }.doWrite

/-- `schedule_heartbeat_`. -/
def scheduleHeartbeat (session : Session) : Session :=
  { session with heartbeatTimer := session.heartbeatTimer.restart () }

/-- `schedule_test_request_timeout_`. -/
def scheduleTestRequestTimeout (session : Session) : Session :=
  { session with inboundTimer := session.inboundTimer.restart () }

/-- `schedule_logon_timeout_`. -/
def scheduleLogonTimeout (session : Session) (expectedState : SessionState) : Session :=
  { session with logonTimer := session.logonTimer.restart expectedState }

/-- The wait for the peer's Logout that `stop_with_logout` starts. -/
def scheduleLogoutTimeout (session : Session) : Session :=
  { session with logoutTimer := session.logoutTimer.restart () }

/-- `store_outbound_message`, whose assertion on the number is checked. -/
def storeOutbound (session : Session) (wire : Bytes) : Session :=
  let checked :=
    if session.store.seqAssert wire then session else session.recordFault .storeSequence
  { checked with store := checked.store.storeOutboundMessage wire }

/-- `send_message_`. The type is not an argument in the source; it is kept for the trace. -/
def sendMessage (session : Session) (type wire : Bytes) (isResend : Bool) : Session :=
  if session.stopped then session
  else
    let queued := session.sendBytes wire
    let stored := if isResend then queued else queued.storeOutbound wire
    let sent := stored.record (.sent type wire isResend)
    if sent.established then sent.scheduleHeartbeat else sent

/-- Send what the factory has built. -/
def sendBuilt (session : Session) (type : Bytes) (built : Bytes × MessageFactory)
    (isResend : Bool) : Session :=
  (session.withFactory built.2).sendMessage type built.1 isResend

end Io

section Senders

/-- `send_logon`. -/
def sendLogon (session : Session) (resetSeqNums : Bool) : Session :=
  session.sendBuilt (ascii "A")
    (session.msgFactory.logon (toInt32 session.params.heartBeatInt) resetSeqNums) false

/-- `send_reject`. -/
def sendReject (session : Session) (refSeqNum reason tag : ℕ) (text : Bytes) : Session :=
  session.sendBuilt (ascii "3") (session.msgFactory.reject refSeqNum reason tag text) false

/-- `send_logout`. -/
def sendLogout (session : Session) (reason : Bytes) : Session :=
  session.sendBuilt (ascii "5") (session.msgFactory.logout reason) false

/-- `send_heartbeat`. -/
def sendHeartbeat (session : Session) (testReqId : Bytes) : Session :=
  session.sendBuilt (ascii "0") (session.msgFactory.heartBeat testReqId) false

/-- `send_test_request`. -/
def sendTestRequest (session : Session) (testReqId : Bytes) : Session :=
  session.sendBuilt (ascii "1") (session.msgFactory.testRequest testReqId) false

/-- `send_resend_request`. -/
def sendResendRequest (session : Session) (beginSeqNo endSeqNo : ℕ) : Session :=
  session.sendBuilt (ascii "2") (session.msgFactory.resendRequest beginSeqNo endSeqNo) false

/-- `send_custom`. -/
def sendCustom (session : Session) (payload : Bytes) : Session :=
  session.sendBuilt MessageFactory.customType (session.msgFactory.customMessage payload) false

/-- `send_sequence_reset_gap_fill`, which is a resend and not stored. -/
def sendSequenceResetGapFill (session : Session) (msgSeqNum newSeqNo : ℕ) : Session :=
  session.sendBuilt (ascii "4") (session.msgFactory.sequenceResetGapFill msgSeqNum newSeqNo) true

/-- `send_from_app` on the strand. -/
def sendFromApp (session : Session) (message : Message) (msgType : Bytes) : Session :=
  if session.stopped then session
  else session.sendBuilt (msgType.take 8) (session.msgFactory.fromApp message msgType) false

end Senders

section Lifecycle

/-- `conn_->close()` when there is a connection. -/
def closeConnection (session : Session) : Session :=
  match session.conn with
  | none => session
  | some conn => { session with closed := session.closed ++ [conn] }

/-- The four timers, cancelled. -/
def cancelTimers (session : Session) : Session :=
  { session with
    logonTimer := session.logonTimer.cancel
    inboundTimer := session.inboundTimer.cancel
    heartbeatTimer := session.heartbeatTimer.cancel
    logoutTimer := session.logoutTimer.cancel }

/-- The assignments with which the session ends. -/
def asStopped (session : Session) : Session :=
  { session with state := .disconnected, stopped := true }

/-- The queue of writes is emptied. -/
def dropWrites (session : Session) : Session :=
  { session with writeInflight := false, writeQ := [] }

/-- `stop_`, and `stop` on the strand. -/
def stop (session : Session) : Session :=
  if session.stopped then session
  else
    let released :=
      match session.conn with
      | none => session.asStopped
      | some _ => session.asStopped.cancelTimers.closeConnection
    released.dropWrites

/-- `stop_with_logout`: a Logout is sent and its answer awaited. -/
def stopWithLogout (session : Session) (reason : Bytes) : Session :=
  if session.stopped then session
  else
    ((session.sendLogout reason).withState .awaitingLogout).scheduleLogoutTimeout

/-- The session with other sequence numbers. -/
def withSeqProvider (session : Session) (provider : SeqProvider) : Session :=
  { session with seqProvider := provider }

/-- A reset of the sequence numbers, which the trace shows. -/
def resetSequence (session : Session) (provider : SeqProvider) : Session :=
  (session.withSeqProvider provider).record .seqReset

/-- A stopped session is started all the same. -/
def startNormal (session : Session) : Session :=
  match session.conn with
  | none => session
  | some _ =>
      let reading := (session.record (.started .normal)).doRead
      match session.role with
      | .initiator =>
          let numbered :=
            if reading.params.initiatorResetOnLogon then
              reading.resetSequence reading.seqProvider.reset
            else reading
          let sent := numbered.sendLogon numbered.params.initiatorResetOnLogon
          (sent.withState .logonSent).scheduleLogonTimeout .logonSent
      | .acceptor => (reading.withState .awaitingLogon).scheduleLogonTimeout .awaitingLogon

/-- What belonged to the previous connection is dropped. -/
def cleanUp (session : Session) : Session :=
  { session with
    awaitingTestRequestResponse := false
    reconnecting := false
    testReqId := 0
    writeQ := []
    writeInflight := false
    recoveryCache := session.recoveryCache.clear
    framer := session.framer.reset }

/-- `start_after_reconnect_`. -/
def startAfterReconnect (session : Session) : Session :=
  match session.conn with
  | none => session
  | some _ =>
      if session.stopped then session
      else
        let cleaned := (session.record (.started .reconnect)).cleanUp
        let waiting :=
          match session.role with
          | .initiator =>
              ((cleaned.sendLogon false).withState .logonSent).scheduleLogonTimeout .logonSent
          | .acceptor => (cleaned.withState .awaitingLogon).scheduleLogonTimeout .awaitingLogon
        waiting.doRead

/-- `start`, on the strand of the session. -/
def start (session : Session) : StartMode → Session
  | .normal => session.startNormal
  | .reconnect => session.startAfterReconnect

/-- `set_connection`. -/
def setConnection (session : Session) (conn : ℕ) : Session := { session with conn := some conn }

/-- The members `on_transport_down_` sets. -/
def disconnect (session : Session) : Session :=
  { session with
    reconnecting := true
    conn := none
    state := .disconnected
    writeInflight := false
    writeQ := []
    recoveryCache := session.recoveryCache.clear
    framer := session.framer.reset }

/-- `on_transport_down_`. -/
def onTransportDown (session : Session) : Session :=
  if session.state = .disconnected || session.stopped then session
  else if session.reconnecting then session
  else
    session.closeConnection.cancelTimers.disconnect.record .reconnectRequested

end Lifecycle

section Handlers

/-- The interval is kept when it is acceptable. -/
def validateHeartbeatInt (session : Session) (incomingValue : Bytes) : Bool × Session :=
  let incoming := (fromChars 32 incomingValue).value.getD 0
  if session.role = .initiator && incoming ≠ session.params.heartBeatInt then (false, session)
  else if incoming < 10 || 120 < incoming then (false, session)
  else (true, session.withInterval incoming)

/-- The wait for the Logon is over. -/
def cancelLogonTimer (session : Session) : Session :=
  { session with logonTimer := session.logonTimer.cancel }

/-- The end of `handle_logon`. -/
def becomeActive (session : Session) : Session :=
  ((session.cancelLogonTimer.withState .active).record
    .logonAccepted).scheduleHeartbeat.scheduleTestRequestTimeout

/-- The text of the Logout that refuses a reset. -/
def resetNotAllowed : Bytes := ascii "ResetSeqNumFlag=Y not allowed by configuration"

/-- `handle_logon`. -/
def handleLogon (session : Session) (view : ValidMessageView) : Session :=
  match view.message.firstValue? 108 with
  | none => session.recordFault (.missingField 108)
  | some heartBtInt =>
      match session.validateHeartbeatInt heartBtInt with
      | (false, session) => session.stopWithLogout (ascii "Invalid HeartBtInt value")
      | (true, session) =>
          let resetSeqNums := view.message.firstValue? 141 = some (ascii "Y")
          match session.role with
          | .acceptor =>
              let received := session.withState .logonReceived
              if resetSeqNums then
                if received.params.acceptorResetOnLogon then
                  let renumbered := received.resetSequence received.seqProvider.acceptorReset
                  (renumbered.sendLogon true).becomeActive
                else received.stopWithLogout resetNotAllowed
              else (received.sendLogon false).becomeActive
          | .initiator =>
              if resetSeqNums && !session.params.initiatorResetOnLogon then
                session.stopWithLogout resetNotAllowed
              else session.becomeActive

/-- The wait for the Logout is over. -/
def cancelLogoutTimer (session : Session) : Session :=
  { session with logoutTimer := session.logoutTimer.cancel }

/-- `handle_logout`. -/
def handleLogout (session : Session) : Session :=
  if session.state = .awaitingLogout then
    session.cancelLogoutTimer.stop
  else (session.sendLogout (ascii "Logout acknowledged")).stop

/-- `handle_heartbeat`. -/
def handleHeartbeat (session : Session) : Session :=
  { session with awaitingTestRequestResponse := false }

/-- `handle_test_request`. -/
def handleTestRequest (session : Session) (view : ValidMessageView) : Session :=
  match view.message.firstValue? 112 with
  | none => session.recordFault (.missingField 112)
  | some testReqId => session.sendHeartbeat testReqId

/-- The message stored under a number, sent again. -/
def resendStored (session : Session) (seqNum : ℕ) : Session :=
  match session.store.getMessageIndex seqNum with
  | none => session.recordFault .storeIndex
  | some index =>
      let wire := session.store.getMessageWire index
      session.sendBuilt index.msgType (session.msgFactory.regenerateMessage wire index) true

/-- The answering loop of `handle_resend_request`, with a bound on its rounds. A scan of `next`
that leaves the index ends there, and the round after it records the access. -/
def answerResend : ℕ → ResendStream → Session → Session
  | 0, stream, session => if stream.hasNext then session.recordFault .endless else session
  | rounds + 1, stream, session =>
      if stream.hasNext then
        let checked := if stream.entry.isNone then session.recordFault .storeIndex else session
        let (action, next) := stream.next
        let answered :=
          if action.gapFill then
            checked.sendSequenceResetGapFill action.beginSeqNo ((action.endSeqNo + 1) % word32)
          else checked.resendStored action.beginSeqNo
        answerResend rounds next answered
      else session

/-- EndSeqNo 0, or one that has not been sent yet, stands for the last message sent. -/
def resendEnd (session : Session) (endSeqNo : ℕ) : ℕ :=
  if endSeqNo = 0 || session.seqProvider.nextOut ≤ endSeqNo then
    (session.seqProvider.nextOut + (word32 - 1)) % word32
  else endSeqNo

/-- `handle_resend_request`: a text that is no 32-bit number is read as 0. -/
def handleResendRequest (session : Session) (view : ValidMessageView) : Session :=
  match view.message.firstValue? 7, view.message.firstValue? 16 with
  | some beginText, some endText =>
      let beginSeqNo := (fromChars 32 beginText).value.getD 0
      let endSeqNo := session.resendEnd ((fromChars 32 endText).value.getD 0)
      answerResend (endSeqNo + 2 - beginSeqNo) (session.store.getResendStream beginSeqNo endSeqNo)
        session
  | none, _ => session.recordFault (.missingField 7)
  | some _, none => session.recordFault (.missingField 16)

/-- The next inbound number is set. -/
def updateIn (session : Session) (seqNo : ℕ) : Session :=
  session.withSeqProvider (session.seqProvider.updateIn seqNo)

/-- `handle_sequence_reset`, which compares NewSeqNo with the next number only without GapFillFlag.
-/
def handleSequenceReset (session : Session) (view : ValidMessageView) : Session :=
  match view.message.firstValue? 36 with
  | none => session.recordFault (.missingField 36)
  | some newSeqNoText =>
      let gapFill := view.message.firstValue? 123 = some (ascii "Y")
      let newSeqNo := (fromChars 64 newSeqNoText).value.getD 0
      if newSeqNo < session.seqProvider.nextIn && !gapFill then
        session.stopWithLogout (ascii "NewSeqNo less than expected")
      else session.updateIn newSeqNo

/-- Only logs. -/
def handleReject (session : Session) (view : ValidMessageView) : Session :=
  match view.message.firstValue? 45 with
  | none => session.recordFault (.missingField 45)
  | some _ => session

/-- The text by which an answer to a Custom message is known. -/
def customResponse : Bytes := ascii "custom_response"

/-- `handle_custom`. -/
def handleCustom (session : Session) (view : ValidMessageView) : Session :=
  let received := (view.message.firstValue? 9250).getD []
  if (find customResponse received).isSome then session
  else session.sendCustom (ascii "custom_response from" ++ session.readableId)

/-- A handler is called with a message. -/
def called (session : Session) (type : Bytes) (view : ValidMessageView) : Session :=
  session.record (.handled type view.headerCache.msgSeqNum view.message)

/-- The choice of the handler at the end of `dispatch`; other types go to the application. -/
def handle (session : Session) (type : Bytes) (view : ValidMessageView) : Session :=
  let called := session.called type view
  if type = ascii "A" then called.handleLogon view
  else if type = ascii "5" then called.handleLogout
  else if type = ascii "0" then called.handleHeartbeat
  else if type = ascii "1" then called.handleTestRequest view
  else if type = ascii "2" then called.handleResendRequest view
  else if type = ascii "3" then called.handleReject view
  else if type = ascii "4" then called.handleSequenceReset view
  else if type = MessageFactory.customType then called.handleCustom view
  else called

end Handlers

section Dispatch

/-- `recovery_cache_.insert` with its assertions. -/
def cacheMessage (session : Session) (seqNum : ℕ) (raw : Bytes) : Session :=
  let checked :=
    if session.recoveryCache.insertAsserts seqNum raw then session
    else session.recordFault .cacheInsert
  checked.withCache (checked.recoveryCache.insert seqNum raw)

/-- A number ahead of the expected one outside recovery: ask for what is missing. -/
def beginRecovery (session : Session) (seqNum : ℕ) (raw : Bytes) : Session :=
  let expected := session.seqProvider.nextIn
  let requested := session.sendResendRequest expected (seqNum - 1)
  let recovering :=
    (requested.withState .recoveringResend).withCache (requested.recoveryCache.start expected)
  if recovering.recoveryCache.contains seqNum then recovering
  else recovering.cacheMessage seqNum raw

/-- The text of the Logout that refuses an old number; it ends with the raw message. -/
def tooLowText (session : Session) (seqNum : ℕ) (raw : Bytes) : Bytes :=
  ascii "Received MsgSeqNum " ++ decimal seqNum ++ ascii " but expected " ++
    decimal session.seqProvider.nextIn ++ ascii "Message: " ++ raw

/-- The sequence number checks of `dispatch`. -/
def checkSequence (session : Session) (type : Bytes) (view : ValidMessageView) (raw : Bytes) :
    Session :=
  let seqNum := view.headerCache.msgSeqNum
  let nextIn := session.seqProvider.nextIn
  if seqNum = nextIn then (session.updateIn (seqNum + 1)).handle type view
  else if nextIn < seqNum then
    if session.state = .recoveringResend then
      if session.recoveryCache.inWindow seqNum then
        if session.recoveryCache.contains seqNum then session
        else session.cacheMessage seqNum raw
      else session.stopWithLogout (ascii "MsgSeqNum too high during recovery")
    else session.beginRecovery seqNum raw
  else if view.headerCache.possDupFlag = some (ascii "Y") then session
  else session.stopWithLogout (session.tooLowText seqNum raw)

/-- `dispatch` from the point where the message is known to be valid. -/
def dispatchValid (session : Session) (type : Bytes) (view : ValidMessageView) (raw : Bytes) :
    Session :=
  let timed := if session.established then session.scheduleTestRequestTimeout else session
  if !timed.established && isAppMessageType type then
    timed.stopWithLogout (ascii "Cannot process app messages yet")
  else timed.checkSequence type view raw

/-- The session with the validator that a message has left. -/
def withValidator (session : Session) (validator : Validator) : Session :=
  { session with validator := validator }

/-- `dispatch`. -/
def dispatch (session : Session) (message : Message) (raw : Bytes) : Session :=
  if session.stopped then session
  else
    let view := makeValidMessageView message
    let validator := session.validator.validateMessage view session.params
    let validated := session.withValidator validator
    if validator.results.severity = .fatal then
      validated.stopWithLogout (ascii "Fatal validation error")
    else
      match validator.results.errors with
      | error :: _ =>
          validated.sendReject view.headerCache.msgSeqNum error.code.code error.tag error.info
      | [] =>
          match view.headerCache.msgType, view.headerCache.hasMsgSeqNum with
          | some type, true => validated.dispatchValid type view raw
          | _, _ => validated

/-- A cached message that parses is dispatched and removed. -/
def drainOne (session : Session) (message : Message) (raw : Bytes) : Session :=
  let expected := session.seqProvider.nextIn
  let dispatched := session.dispatch message raw
  let checked :=
    if dispatched.recoveryCache.contains expected then dispatched
    else dispatched.recordFault .cacheConsume
  checked.withCache (checked.recoveryCache.consume expected)

/-- The loop of `drain_recovery_cache_`, with a bound on its rounds. A cached message that does
not parse ends the session. -/
def drainLoop : ℕ → Session → Session
  | 0, session => session.recordFault .endlessDrain
  | rounds + 1, session =>
      if session.recoveryCache.contains session.seqProvider.nextIn then
        let raw := session.recoveryCache.get session.seqProvider.nextIn
        let (message, errors) := Parser.parse raw
        if errors = [] then drainLoop rounds (session.drainOne message raw)
        else (session.sendLogout (ascii "Parse error during recovery")).stop
      else if session.recoveryCache.empty then session.withState .active
      else session

/-- Every round consumes a message of the window. -/
def drainRecoveryCache (session : Session) : Session :=
  if session.recoveryCache.empty || session.state ≠ .recoveringResend then session
  else session.drainLoop (RecoveryCache.window + 1)

/-- The part of `process_wire_message_` before the drain. -/
def receive (session : Session) (wire : Bytes) : Session :=
  let (message, errors) := Parser.parse wire
  if errors = [] then session.dispatch message wire
  else session.stopWithLogout (ascii "Parse error")

/-- `process_wire_message_`: the message, and then what was cached behind it. -/
def processWireMessage (session : Session) (wire : Bytes) : Session :=
  (session.receive wire).drainRecoveryCache

end Dispatch

section Completions

/-- How a read or write can fail, as `classify_readwrite_error` sorts it. -/
inductive IoError
  | aborted
  | transient
  | down
  deriving DecidableEq, Repr

/-- The session with another state of its framer. -/
def withFramer (session : Session) (framer : Framer) : Session :=
  { session with framer := framer }

/-- The loop over the complete messages after a read, with a bound on its rounds. -/
def processMessages : ℕ → Session → Session
  | 0, session => if session.framer.hasMessage then session.recordFault .endless else session
  | rounds + 1, session =>
      if session.framer.hasMessage then
        let processed := session.processWireMessage session.framer.getMessage
        processMessages rounds (processed.withFramer processed.framer.consumeMessage)
      else session

/-- The completion handler of `do_read`. -/
def onRead (session : Session) (result : Except IoError Bytes) : Session :=
  if session.stopped then session
  else
    match result with
    | .error .aborted => session
    | .error .transient => session.doRead
    | .error .down => session.onTransportDown
    | .ok data =>
        let appended := session.withFramer (session.framer.append data)
        (appended.processMessages appended.framer.completed.size).doRead

/-- The completion handler of `do_write`. -/
def onWrite (session : Session) (result : Except IoError ℕ) : Session :=
  if session.stopped then session
  else
    match result with
    | .error .aborted => session
    | .error .transient => session.doWrite
    | .error .down => session.onTransportDown
    | .ok accepted =>
        match session.writeQ with
        | [] => session.recordFault .emptyWriteQueue
        | front :: rest =>
            let sent := front.sent + accepted
            let writeQ :=
              if front.data.length ≤ sent then rest else { front with sent := sent } :: rest
            { session with writeQ := writeQ }.doWrite

/-- The handler of the heartbeat timer. -/
def onHeartbeatTimer (session : Session) : Session :=
  if session.stopped then session else (session.sendHeartbeat []).scheduleHeartbeat

/-- The TestReqID of the session's own TestRequests. -/
def testRequestText (testReqId : ℕ) : Bytes := ascii "TESTREQ_" ++ decimal testReqId

/-- A TestRequest is out, under the next number. -/
def expectResponse (session : Session) : Session :=
  { session with
    awaitingTestRequestResponse := true
    testReqId := (session.testReqId + 1) % word64 }

/-- The handler of the inbound timer: a TestRequest first, and a Logout when it stays unanswered. -/
def onInboundTimer (session : Session) : Session :=
  if session.stopped then session
  else if session.awaitingTestRequestResponse then
    session.stopWithLogout (ascii "No response to Test Request")
  else
    (session.expectResponse.sendTestRequest
      (testRequestText session.testReqId)).scheduleTestRequestTimeout

/-- The handler of the logon timer, which stops a session that is still where it was. -/
def onLogonTimer (session : Session) (expectedState : SessionState) : Session :=
  if session.stopped then session
  else if session.state = expectedState then session.stop
  else session

/-- The handler of the logout timer. -/
def onLogoutTimer (session : Session) : Session :=
  if session.stopped then session else session.stop

/-- What happens to a session, one handler on the strand at a time. -/
inductive Input
  /-- A complete message was cut out of what was read. -/
  | frame (wire : Bytes)
  | sendFromApp (message : Message) (msgType : Bytes)
  | heartbeatTimer
  | inboundTimer
  | logonTimer (expectedState : SessionState)
  | logoutTimer
  | writeDone (result : Except IoError ℕ)
  | readFailed (error : IoError)
  | setConnection (conn : ℕ)
  | start (mode : StartMode)
  | stop

/-- The session after an input. -/
def step (session : Session) : Input → Session
  | .frame wire => session.processWireMessage wire
  | .sendFromApp message msgType => session.sendFromApp message msgType
  | .heartbeatTimer => session.onHeartbeatTimer
  | .inboundTimer => session.onInboundTimer
  | .logonTimer expectedState => session.onLogonTimer expectedState
  | .logoutTimer => session.onLogoutTimer
  | .writeDone result => session.onWrite result
  | .readFailed error => session.onRead (.error error)
  | .setConnection conn => session.setConnection conn
  | .start mode => session.start mode
  | .stop => session.stop

/-- The session after inputs. -/
def run (session : Session) (inputs : List Input) : Session := inputs.foldl step session

/-- The constructor. -/
def new (id : ℕ) (role : Role) (params : SessionParameters) (clock : Clock) : Session where
  id := id
  role := role
  params := params
  clock := clock

end Completions

end Session

end FixEngine
