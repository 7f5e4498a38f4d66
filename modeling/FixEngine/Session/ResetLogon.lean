import FixEngine.Outbound.Alignment
import FixEngine.Outbound.Resending
import FixEngine.Session.Rejection

/-!
# A Logon that resets the numbers

An acceptor that allows it answers a Logon with ResetSeqNumFlag=Y from fresh numbers. The reset is
made by the handler, so the Logon has to have the number the old count expects; and the store keeps
the messages of the old count, so the answer is stored behind them, against the assertion of
`store_outbound_message`. The reset works exactly where there is nothing to reset.
-/

namespace FixEngine

/-- The failed assertions of the store. -/
def storeFaults (trace : List Event) : List Event := trace.filter (· = .fault .storeSequence)

@[simp]
theorem storeFaults_append (front rest : List Event) :
    storeFaults (front ++ rest) = storeFaults front ++ storeFaults rest := by
  simp [storeFaults]

namespace Session

section StoreFaults

variable {session : Session}

theorem Calm.storeFaults_eq {before after : Session} (calm : Calm before after) :
    storeFaults after.trace = storeFaults before.trace := by
  rcases calm.trace_eq with ⟨events, traceEq, areCalm⟩
  have none : storeFaults events = [] := by
    rw [storeFaults, List.filter_eq_nil_iff]
    intro event mem isFault
    have := areCalm event mem
    simp only [decide_eq_true_eq] at isFault
    subst isFault
    simp [Event.isCalm] at this
  rw [traceEq, storeFaults_append, none, List.append_nil]

/-- A message that is sent for the first time is stored where its number says, or not. -/
theorem storeFaults_sendMessage (running : session.stopped = false) (type wire : Bytes) :
    storeFaults (session.sendMessage type wire false).trace = storeFaults session.trace ++
      (if session.store.seqAssert wire then [] else [.fault .storeSequence]) := by
  rcases session.trace_sendMessage running type wire false with ⟨written, traceEq, faults⟩
  have none : storeFaults written = [] := by
    rw [storeFaults, List.filter_eq_nil_iff]
    intro e mem
    simp [faults e mem]
  rw [traceEq, storeFaults_append, storeFaults_append, storeFaults_append, none, storeEvents,
    Bool.false_or]
  split
  · simp [storeFaults]
  · simp [storeFaults]

end StoreFaults

section Answer

variable {session : Session} {view : ValidMessageView}

/-- With one administrative message stored, everything that can be asked for is a gap. -/
theorem handleResendRequest_single {index : MsgIndex}
    (single : session.store.outboundIndex = [index])
    (admin : ResendStream.noResend index.msgType = true) (next : session.seqProvider.nextOut = 2)
    {beginText endText : Bytes} (foundBegin : view.message.firstValue? 7 = some beginText)
    (foundEnd : view.message.firstValue? 16 = some endText)
    (beginEq : (fromChars 32 beginText).value = some 1)
    (endEq : (fromChars 32 endText).value = some 0) :
    session.handleResendRequest view = session.send (.gapFill 1 2) := by
  have last : session.resendEnd 0 = 1 := by
    have wrapped : (2 + (word32 - 1)) % word32 = 1 := by decide
    simp [resendEnd, next, wrapped]
  have entry : (ResendStream.mk [index] 1 1).entry = some index := by
    have first : (1 + (word32 - 1)) % word32 = 0 := by decide
    simp [ResendStream.entry, first]
  have atAdmin : (ResendStream.mk [index] 1 1).atAdmin = true := by
    simp [ResendStream.atAdmin, ResendStream.hasNext, entry, admin]
  have advanced : (ResendStream.mk [index] 1 1).advance = ⟨[index], 2, 1⟩ := by
    have second : (1 + 1) % word32 = 2 := by decide
    simp only [ResendStream.advance, second]
  have ended : (ResendStream.mk [index] 2 1).hasNext = false := rfl
  have notAdmin : (ResendStream.mk [index] 2 1).atAdmin = false := by
    simp [ResendStream.atAdmin, ended]
  have skipped : ResendStream.skipAdmin 2 ⟨[index], 1, 1⟩ = ⟨[index], 2, 1⟩ := by
    simp only [ResendStream.skipAdmin, atAdmin, if_true, advanced, notAdmin, Bool.false_eq_true,
      if_false]
  have filled : (ResendStream.mk [index] 1 1).next = (⟨1, 1, true⟩, ⟨[index], 2, 1⟩) := by
    have first : (2 + (word32 - 1)) % word32 = 1 := by decide
    simp [ResendStream.next, atAdmin, skipped, first]
  have started : (ResendStream.mk [index] 1 1).hasNext = true := rfl
  have newNumber : (1 + 1) % word32 = 2 := by decide
  have answered : answerResend 2 ⟨[index], 1, 1⟩ session = session.send (.gapFill 1 2) := by
    rw [answerResend_succ, if_pos started, filled, answerResend_succ, if_neg (by simp [ended]),
      answerRound, filled, entry, send_gapFill]
    simp only [Option.isNone_some, Bool.false_eq_true, if_false, if_true, newNumber]
  simp only [handleResendRequest, foundBegin, foundEnd, beginEq, endEq, Option.getD_some, last,
    MessageStore.getResendStream, single]
  exact answered

end Answer

section Reset

variable {session : Session} {message : Message} {wire : Bytes}

/-- A Logon that asks for a reset, with an interval the session accepts. -/
structure ResetLogon (message : Message) : Prop where
  flagged : message.firstValue? 141 = some (ascii "Y")
  interval : ∃ text value, message.firstValue? 108 = some text ∧
    (fromChars 32 text).value = some value ∧ 10 ≤ value ∧ value ≤ 120

/-- An acceptor that may be reset. -/
structure Resettable (session : Session) : Prop where
  isAcceptor : session.role = .acceptor
  allowed : session.params.acceptorResetOnLogon = true

/-- The handler answers from fresh numbers. -/
theorem handleLogon_reset {view : ValidMessageView} (resettable : session.Resettable)
    (reset : ResetLogon view.message) :
    ∃ renumbered, Calm session renumbered ∧ renumbered.seqProvider = ⟨2, 1⟩ ∧
      session.handleLogon view = (renumbered.send (.logon true)).becomeActive := by
  rcases reset.interval with ⟨text, value, found, read, low, high⟩
  have taken : session.validateHeartbeatInt text = (true, session.withInterval value) := by
    have inRange : ¬(value < 10 ∨ 120 < value) := by omega
    simp [validateHeartbeatInt, read, resettable.isAcceptor, inRange]
  have roleEq : (session.withInterval value).role = .acceptor := resettable.isAcceptor
  have allowedEq : ((session.withInterval value).withState
      .logonReceived).params.acceptorResetOnLogon = true := resettable.allowed
  refine ⟨((session.withInterval value).withState .logonReceived).resetSequence ⟨2, 1⟩, ?_, rfl, ?_⟩
  · exact ((session.calm_withInterval value).trans (calm_withState _ _)).trans
      (calm_resetSequence _ _)
  · simp only [handleLogon, found, taken, roleEq, reset.flagged, if_true, allowedEq,
      SeqProvider.acceptorReset]
    rfl

theorem dispatch_resetLogon (running : session.stopped = false) (resettable : session.Resettable)
    (accepts : session.Accepts message (ascii "A"))
    (turn : (makeValidMessageView message).headerCache.msgSeqNum = session.seqProvider.nextIn)
    (reset : ResetLogon message) (raw : Bytes) :
    ∃ renumbered, Calm session renumbered ∧ renumbered.seqProvider = ⟨2, 1⟩ ∧
      session.dispatch message raw = (renumbered.send (.logon true)).becomeActive := by
  have admin : isAppMessageType (ascii "A") = false := by decide
  have admitted : session.Admitted message (ascii "A") :=
    ⟨accepts, fun app => by simp [admin] at app⟩
  have prepared := session.keeps_prepared message
  rw [dispatch_prepared running admitted raw]
  have inSequence : (session.prepared message).checkSequence (ascii "A")
      (makeValidMessageView message) raw = (((session.prepared message).updateIn
        ((makeValidMessageView message).headerCache.msgSeqNum + 1)).called (ascii "A")
          (makeValidMessageView message)).handleLogon (makeValidMessageView message) := by
    simp only [checkSequence, turn, prepared.nextIn_eq, if_true, handle]
  rw [inSequence]
  have called : Calm session (((session.prepared message).updateIn
      ((makeValidMessageView message).headerCache.msgSeqNum + 1)).called (ascii "A")
        (makeValidMessageView message)) :=
    ((session.calm_prepared message).trans (calm_updateIn _ _)).trans (calm_called _ _ _)
  have calledResettable : (((session.prepared message).updateIn
      ((makeValidMessageView message).headerCache.msgSeqNum + 1)).called (ascii "A")
        (makeValidMessageView message)).Resettable := by
    refine ⟨prepared.role_eq.trans resettable.isAcceptor, ?_⟩
    exact (congrArg SessionParameters.acceptorResetOnLogon prepared.params_eq).trans
      resettable.allowed
  rcases @handleLogon_reset _ (makeValidMessageView message) calledResettable reset with
    ⟨renumbered, calm, numbers, handled⟩
  exact ⟨renumbered, called.trans calm, numbers, handled⟩

/-- The text of the answer. -/
def resetReply (session : Session) (interval : Bytes) : Bytes :=
  wireOf session.params.fixVersion
    (MessageFactory.headerFields session.params (ascii "A") 1 session.clock.nowFix ++
      [⟨98, toChars session.params.encryptMethod⟩, ⟨141, ascii "Y"⟩, ⟨108, interval⟩])

theorem built_resetReply {renumbered : Session} (configured : session.Configured)
    (calm : Calm session renumbered) (numbers : renumbered.seqProvider = ⟨2, 1⟩) :
    ∃ interval, ((Outgoing.logon true).built renumbered.msgFactory).1 =
        session.resetReply interval ∧
      ∀ off, (createMessageIndex (session.resetReply interval) off).seq = 1 ∧
        (createMessageIndex (session.resetReply interval) off).msgType = ascii "A" := by
  have renumberedConfigured := configured.texts (.of_calm calm)
  have storable := (composable_logon renumberedConfigured true).storable
  have small : renumbered.seqProvider.nextOut < word32 := by
    rw [numbers]
    decide
  have wireEq := renumbered.msgFactory.build_wire (ascii "A")
    ((Outgoing.logon true).fields renumbered.params)
    (length_body_lt renumberedConfigured storable)
  have replyEq : ((Outgoing.logon true).built renumbered.msgFactory).1 =
      session.resetReply (toChars (toInt32 renumbered.params.heartBeatInt)) := by
    refine wireEq.trans ?_
    simp only [MessageFactory.bodyOf, MessageFactory.headerFields, msgFactory, numbers,
      Outgoing.fields, resetReply, calm.fixVersion_eq, calm.senderCompId_eq, calm.targetCompId_eq,
      calm.clock_eq, calm.encryptMethod_eq, if_true]
  refine ⟨_, replyEq, ?_⟩
  intro off
  have plain : PlainFields ((Outgoing.logon true).fields renumbered.params) := storable.plain
  simp only [Outgoing.fields, calm.encryptMethod_eq, if_true] at plain
  have stamped := index_stamped configured.plain (by decide : soh ∉ ascii "A")
    (session.clock.soh_not_mem_times session.clock.calls) plain (by decide : 1 < word32) off
  exact ⟨stamped.1, stamped.2⟩

/-- The session is active from fresh numbers, its Logon was the only message and is stored as
message 1, and a request for everything is answered with a gap fill over that Logon. -/
structure Renumbers (session : Session) (wire : Bytes) : Prop where
  active : (session.processWireMessage wire).state = .active
  nextIn_eq : (session.processWireMessage wire).seqProvider.nextIn = 2
  nextOut_eq : (session.processWireMessage wire).seqProvider.nextOut = 2
  sent : ∃ interval, sentMessages (session.processWireMessage wire).trace =
    sentMessages session.trace ++ [(ascii "A", session.resetReply interval)]
  stored : storeFaults (session.processWireMessage wire).trace = storeFaults session.trace
  answered : ∀ (view : ValidMessageView) (beginText endText : Bytes),
    view.message.firstValue? 7 = some beginText → view.message.firstValue? 16 = some endText →
    (fromChars 32 beginText).value = some 1 → (fromChars 32 endText).value = some 0 →
      sentMessages ((session.processWireMessage wire).handleResendRequest view).trace =
        sentMessages (session.processWireMessage wire).trace ++
          [(ascii "4", ((session.processWireMessage wire).msgFactory.sequenceResetGapFill 1 2).1)]

/-- Where its turn has come, the Logon does what it should if and only if the store is empty. -/
theorem renumbers_iff_of_turn (configured : session.Configured) (running : session.stopped = false)
    (resettable : session.Resettable) (parsed : (Parser.parse wire).2 = [])
    (accepts : session.Accepts (Parser.parse wire).1 (ascii "A"))
    (turn : numberOf wire = session.seqProvider.nextIn) (reset : ResetLogon (Parser.parse wire).1) :
    session.Renumbers wire ↔ session.store.outboundIndex = [] := by
  rcases dispatch_resetLogon running resettable accepts turn reset wire with
    ⟨renumbered, calm, numbers, dispatchEq⟩
  rcases built_resetReply configured calm numbers with ⟨interval, replyEq, indexed⟩
  have renumberedRunning : renumbered.stopped = false := calm.stopped_eq.trans running
  have becomes := calm_becomeActive (renumbered.send (.logon true))
  have processed : session.processWireMessage wire =
      (renumbered.send (.logon true)).becomeActive := by
    rw [← dispatchEq]
    apply processWireMessage_of_settled parsed
    rw [dispatchEq]
    exact (by decide : SessionState.active ≠ .recoveringResend)
  have asserted : ∀ off, (createMessageIndex (session.resetReply interval) off).seq = 1 :=
    fun off => (indexed off).1
  have faults : storeFaults (session.processWireMessage wire).trace = storeFaults session.trace ++
      (if session.store.outboundIndex = [] then [] else [.fault .storeSequence]) := by
    have sent := @storeFaults_sendMessage
      (renumbered.withFactory ((Outgoing.logon true).built renumbered.msgFactory).2)
      renumberedRunning (ascii "A") ((Outgoing.logon true).built renumbered.msgFactory).1
    have kept : renumbered.store = session.store := calm.store_eq
    have holds : session.store.seqAssert (session.resetReply interval) =
        decide (session.store.outboundIndex = []) := by
      rw [MessageStore.seqAssert, asserted]
      cases session.store.outboundIndex with
      | nil => rfl
      | cons first rest => simp
    rw [processed, becomes.storeFaults_eq]
    refine sent.trans ?_
    simp only [withFactory, replyEq, kept, holds, decide_eq_true_eq, calm.storeFaults_eq]
  constructor
  · intro renumbers
    by_contra full
    have stored := renumbers.stored
    rw [faults, if_neg full] at stored
    simp at stored
  · intro empty
    have nextOut : (renumbered.send (.logon true)).seqProvider = ⟨2, 2⟩ := by
      rw [seqProvider_send, Outgoing.built_eq rfl, MessageFactory.seqProvider_build, msgFactory,
        numbers]
      rfl
    have store : (renumbered.send (.logon true)).store =
        session.store.storeOutboundMessage (session.resetReply interval) := by
      rw [store_send, replyEq, calm.store_eq, renumberedRunning]
      rfl
    have sends : sentMessages (renumbered.send (.logon true)).trace =
        sentMessages session.trace ++ [(ascii "A", session.resetReply interval)] := by
      rw [sentMessages_send, calm.sentMessages_eq, replyEq, renumberedRunning]
      rfl
    rw [if_pos empty, List.append_nil] at faults
    refine ⟨?_, ?_, ?_, ⟨interval, ?_⟩, faults, ?_⟩
    · rw [processed]
      rfl
    · rw [processed]
      exact congrArg SeqProvider.nextIn nextOut
    · rw [processed]
      exact congrArg SeqProvider.nextOut nextOut
    · rw [processed, becomes.sentMessages_eq, sends]
    · intro view beginText endText foundBegin foundEnd beginEq endEq
      rcases outboundIndex_storeOutboundMessage session.store (session.resetReply interval) with
        ⟨off, indexEq⟩
      have single : (renumbered.send (.logon true)).becomeActive.store.outboundIndex =
          [createMessageIndex (session.resetReply interval) off] := by
        rw [becomes.store_eq, store, indexEq, empty]
        rfl
      have admin : ResendStream.noResend
          (createMessageIndex (session.resetReply interval) off).msgType = true := by
        rw [(indexed off).2]
        decide
      have answer := @handleResendRequest_single _ view _ single admin
        (congrArg SeqProvider.nextOut nextOut) beginText endText foundBegin foundEnd beginEq endEq
      have stillRunning : (renumbered.send (.logon true)).becomeActive.stopped = false := by
        rw [becomes.stopped_eq]
        exact (renumbered.keeps_sendLogon true).stopped_eq.trans renumberedRunning
      rw [processed, answer, sentMessages_send, stillRunning]
      rfl

end Reset

section Turn

variable {session : Session} {wire : Bytes}

/-- Before its turn the Logon starts a recovery, after its turn it is refused or dropped. -/
theorem not_renumbers_of_turn (running : session.stopped = false)
    (waiting : session.state = .awaitingLogon) (parsed : (Parser.parse wire).2 = [])
    (accepts : session.Accepts (Parser.parse wire).1 (ascii "A"))
    (other : numberOf wire ≠ session.seqProvider.nextIn) : ¬session.Renumbers wire := by
  intro renumbers
  have settled : session.state ≠ .recoveringResend := by simp [waiting]
  by_cases ahead : session.seqProvider.nextIn < numberOf wire
  · have admin : isAppMessageType (ascii "A") = false := by decide
    have admitted : session.Admitted (Parser.parse wire).1 (ascii "A") :=
      ⟨accepts, fun app => by simp [admin] at app⟩
    have prepared := session.keeps_prepared (Parser.parse wire).1
    have begins : session.receive wire =
        (session.prepared (Parser.parse wire).1).beginRecovery (numberOf wire) wire := by
      have readySettled : (session.prepared (Parser.parse wire).1).state ≠ .recoveringResend := by
        rw [prepared.state_eq]
        exact settled
      simp only [receive, parsed, if_true]
      rw [dispatch_prepared running admitted wire, checkSequence]
      simp only [prepared.nextIn_eq]
      rw [if_neg (show ¬(makeValidMessageView (Parser.parse wire).1).headerCache.msgSeqNum = _ from
        other), if_pos (show _ < (makeValidMessageView (Parser.parse wire).1).headerCache.msgSeqNum
        from ahead), if_neg readySettled]
      rfl
    rcases (performs_drainRecoveryCache (session.receive wire)).sentMessages_grow with ⟨more, moreEq⟩
    rcases renumbers.sent with ⟨interval, sentEq⟩
    rw [processWireMessage, moreEq, begins, (calm_beginRecovery _ _ _).sentMessages_eq,
      sentMessages_send, prepared.stopped_eq, running,
      (session.calm_prepared (Parser.parse wire).1).sentMessages_eq, List.append_assoc] at sentEq
    have same := List.append_cancel_left sentEq
    simp only [Bool.false_eq_true, if_false, List.cons_append, List.nil_append, List.cons.injEq,
      Prod.mk.injEq] at same
    exact absurd same.1.1 (show ascii "2" ≠ ascii "A" by decide)
  · have notAhead : numberOf wire ≤ session.seqProvider.nextIn := Nat.not_lt.mp ahead
    have processed : session.processWireMessage wire =
        session.dispatch (Parser.parse wire).1 wire :=
      processWireMessage_of_settled parsed (dispatch_not_recovering settled notAhead)
    have active := renumbers.active
    rw [processed] at active
    cases session.dispatch_effect (Parser.parse wire).1 wire with
    | stopped isStopped afterEq => simp [running] at isStopped
    | quiet _ keeps =>
        rw [keeps.state_eq, waiting] at active
        cases active
    | loggedOut _ refuses keeps =>
        rw [keeps.state_eq] at active
        cases active
    | handled _ type admitted turn => exact other turn
    | cached _ type admitted _ recovering => exact settled recovering
    | gap _ type admitted isAhead => exact ahead isAhead

/-- A valid Logon with number 1 that asks for a reset works exactly for a running acceptor that
still expects number 1 and has stored nothing. -/
theorem reset_logon_iff (session : Session) (wire : Bytes) (configured : session.Configured)
    (resettable : session.Resettable) (waiting : session.state = .awaitingLogon)
    (parsed : (Parser.parse wire).2 = [])
    (accepts : session.Accepts (Parser.parse wire).1 (ascii "A")) (number : numberOf wire = 1)
    (reset : ResetLogon (Parser.parse wire).1) :
    session.Renumbers wire ↔
      session.stopped = false ∧ session.seqProvider.nextIn = 1 ∧
        session.store.outboundIndex = [] := by
  cases running : session.stopped with
  | true =>
      have unchanged : session.dispatch (Parser.parse wire).1 wire = session := by
        simp only [dispatch, running, if_true]
      have processed : session.processWireMessage wire = session := by
        rw [processWireMessage_of_settled parsed, unchanged]
        rw [unchanged, waiting]
        decide
      constructor
      · intro renumbers
        have active := renumbers.active
        rw [processed, waiting] at active
        cases active
      · rintro ⟨isRunning, -⟩
        cases isRunning
  | false =>
      by_cases turn : numberOf wire = session.seqProvider.nextIn
      · rw [renumbers_iff_of_turn configured running resettable parsed accepts turn reset]
        constructor
        · intro empty
          exact ⟨rfl, by rw [← turn, number], empty⟩
        · rintro ⟨-, -, empty⟩
          exact empty
      · constructor
        · intro renumbers
          exact absurd renumbers (not_renumbers_of_turn running waiting parsed accepts turn)
        · rintro ⟨-, expected, -⟩
          exact absurd (number.trans expected.symm) turn

end Turn

section Example

/-- An acceptor waits for the Logon of its peer. -/
def acceptor : Session := Session.new 0 .acceptor
  { senderCompId := ascii "A", targetCompId := ascii "B" } .standard

/-- The acceptor waits for the Logon of its peer. -/
def waitingRun : List Input := [.setConnection 0, .start .normal]

/-- The peer's Logon, with a reset. -/
def peerResetLogon : Bytes :=
  peerWire (ascii "A") 1 [⟨98, ascii "0"⟩, ⟨141, ascii "Y"⟩, ⟨108, ascii "30"⟩]

/-- The acceptor was logged on before, and waits for the Logon on a new connection. -/
def reconnectedRun : List Input :=
  waitingRun ++ [.frame (peerWire (ascii "A") 1 [⟨98, ascii "0"⟩, ⟨108, ascii "30"⟩]),
    .readFailed .down, .setConnection 1, .start .reconnect]

/-- The acceptor has only sent a Logout, to a peer that did not begin with a Logon. -/
def turnedAwayRun : List Input :=
  waitingRun ++ [.frame (peerWire MessageFactory.customType 1 [⟨9250, ascii "x"⟩]),
    .readFailed .down, .setConnection 1, .start .reconnect]

theorem reset_logon_fresh : (acceptor.run waitingRun).Renumbers peerResetLogon :=
  (reset_logon_iff (acceptor.run waitingRun) peerResetLogon
    ⟨⟨by decide +kernel, by decide +kernel, by decide +kernel⟩, by decide +kernel,
      by decide +kernel, by decide +kernel, fun _ => show (ascii "Now").length < 10 ^ 9 by decide,
      by decide +kernel, by decide +kernel⟩
    ⟨by decide +kernel, by decide +kernel⟩ (by decide +kernel) (by decide +kernel)
    ⟨by decide +kernel, by decide +kernel, by decide +kernel, by decide +kernel⟩ (by decide +kernel)
    ⟨by decide +kernel, ascii "30", 30, by decide +kernel, by decide +kernel, by decide,
      by decide⟩).mpr
    ⟨by decide +kernel, by decide +kernel, by decide +kernel⟩

/-- After an earlier connection the Logon is refused as too low; or it is answered, and the answer
is stored behind the messages of the old count. -/
theorem reset_logon_fails :
    (∀ session ∈ [acceptor.run reconnectedRun, acceptor.run turnedAwayRun],
      session.role = .acceptor ∧ session.params.acceptorResetOnLogon = true ∧
        session.state = .awaitingLogon ∧ session.stopped = false ∧
        (session.results (Parser.parse peerResetLogon).1).severity ≠ .fatal ∧
        (session.results (Parser.parse peerResetLogon).1).errors = []) ∧
      numberOf peerResetLogon = 1 ∧
      (let session := acceptor.run reconnectedRun;
        session.seqProvider = ⟨2, 2⟩ ∧
          (session.processWireMessage peerResetLogon).state = .awaitingLogout ∧
          sentTypes (session.processWireMessage peerResetLogon).trace = [ascii "A", ascii "5"]) ∧
      (let session := acceptor.run turnedAwayRun;
        session.seqProvider = ⟨1, 2⟩ ∧ .fault .storeSequence ∉ session.trace ∧
          .fault .storeSequence ∈ (session.processWireMessage peerResetLogon).trace) := by
  refine ⟨?_, by decide +kernel, by decide +kernel, by decide +kernel⟩
  intro session mem
  simp only [List.mem_cons, List.not_mem_nil, or_false] at mem
  rcases mem with sessionEq | sessionEq
  · rw [sessionEq]
    decide +kernel
  · rw [sessionEq]
    decide +kernel

end Example

end Session

end FixEngine
