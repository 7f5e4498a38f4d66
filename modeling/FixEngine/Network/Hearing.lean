import FixEngine.Network.Speaking
import FixEngine.Recovery.Reordering

/-!
# What a session has heard

`Converses` ties a session to a speaker of the conversation: it `Speaks` what the speaker has said, it
`Attends` to the phrase after those heard, and its handlers were called with the messages that were
heard. Processing the wire of the next phrase makes the session do what the speaker does.
-/

namespace FixEngine

namespace Session

/-- The timers that send something, and the one of the Logout. -/
def waits (session : Session) : Timer Unit × Timer Unit × Timer Unit :=
  (session.heartbeatTimer, session.inboundTimer, session.logoutTimer)

/-- A message goes to its handler with what was read. -/
def delivered (wire : Bytes) : Bytes × ℕ × Message :=
  ((viewOf wire).headerCache.msgType.getD [], numberOf wire, (Parser.parse wire).1)

section Sending

variable {session : Session}

theorem waits_doWrite (session : Session) : session.doWrite.waits = session.waits := by
  rw [doWrite]
  split
  · rfl
  split
  · rfl
  split <;> rfl

theorem waits_sendBytes (session : Session) (data : Bytes) :
    (session.sendBytes data).waits = session.waits := by
  simp only [sendBytes]
  split
  · rfl
  · exact waits_doWrite _

/-- Only a session that is logged on waits for its next heartbeat. -/
theorem waits_sendMessage (type wire : Bytes) (isResend : Bool) :
    (session.sendMessage type wire isResend).inboundTimer = session.inboundTimer ∧
      (session.sendMessage type wire isResend).logoutTimer = session.logoutTimer ∧
      (session.established = false →
        (session.sendMessage type wire isResend).heartbeatTimer = session.heartbeatTimer) := by
  cases running : session.stopped with
  | true => simp [sendMessage, running]
  | false =>
      obtain ⟨stored, storedDef⟩ : ∃ stored, stored = (if isResend = true then
        session.sendBytes wire else (session.sendBytes wire).storeOutbound wire) := ⟨_, rfl⟩
      have kept : stored.waits = session.waits ∧ Keeps session stored := by
        rw [storedDef]
        split
        · exact ⟨session.waits_sendBytes wire, session.keeps_sendBytes wire⟩
        · refine ⟨?_, (session.keeps_sendBytes wire).trans (keeps_storeOutbound _ wire)⟩
          simp only [storeOutbound]
          split <;> exact session.waits_sendBytes wire
      have same : stored.inboundTimer = session.inboundTimer ∧
          stored.logoutTimer = session.logoutTimer ∧
          stored.heartbeatTimer = session.heartbeatTimer :=
        ⟨congrArg (·.2.1) kept.1, congrArg (·.2.2) kept.1, congrArg (·.1) kept.1⟩
      have established : (stored.record (.sent type wire isResend)).established =
        session.established := kept.2.established_eq
      simp only [sendMessage, running, Bool.false_eq_true, if_false, ← storedDef, established]
      split
      · next on => exact ⟨same.1, same.2.1, fun off => by simp [on] at off⟩
      · exact ⟨same.1, same.2.1, fun _ => same.2.2⟩

end Sending

section Handlers

variable (session : Session) (view : ValidMessageView)

theorem handle_logon :
    session.handle (ascii "A") view = (session.called (ascii "A") view).handleLogon view := by
  rw [handle, if_pos rfl]

theorem handle_heartbeat :
    session.handle (ascii "0") view = (session.called (ascii "0") view).handleHeartbeat := by
  rw [handle, if_neg (by decide), if_neg (by decide), if_pos rfl]

theorem handle_testRequest :
    session.handle (ascii "1") view = (session.called (ascii "1") view).handleTestRequest view := by
  rw [handle, if_neg (by decide), if_neg (by decide), if_neg (by decide), if_pos rfl]

theorem handle_custom : session.handle MessageFactory.customType view =
    (session.called MessageFactory.customType view).handleCustom view := by
  rw [handle, if_neg (by decide), if_neg (by decide), if_neg (by decide), if_neg (by decide),
    if_neg (by decide), if_neg (by decide), if_neg (by decide), if_pos rfl]

end Handlers

end Session

namespace Conversation

/-- The state of a session that has heard so much. -/
def stateAt : Role → ℕ → SessionState
  | .initiator, 0 => .logonSent
  | .acceptor, 0 => .awaitingLogon
  | _, _ + 1 => .active

/-- What a session expects, and what it waits for. -/
structure Attends (setup : Setup) (role : Role) (next : ℕ) (state : SessionState)
    (session : Session) : Prop where
  nextIn_eq : session.seqProvider.nextIn = next
  state_eq : session.state = state
  interval_eq : role = .initiator → session.params.heartBeatInt = setup.interval
  testReqId_lt : session.testReqId < word64
  /-- Heartbeats and TestRequests are not thought of before the Logon, a Logout not at all. -/
  idle : session.established = false →
    session.heartbeatTimer.expired = [] ∧ session.heartbeatTimer.waiting = none ∧
      session.inboundTimer.expired = [] ∧ session.inboundTimer.waiting = none
  noLogout : session.logoutTimer.expired = [] ∧ session.logoutTimer.waiting = none

/-- The session has said `phrases`, its handlers were called with `handled`, and it expects the number
`next`. -/
structure Engaged (setup : Setup) (role : Role) (phrases : List Phrase) (written : Bytes)
    (next : ℕ) (state : SessionState) (handled : List Bytes) (session : Session) : Prop where
  speaks : Speaks setup role phrases written session
  attends : Attends setup role next state session
  deliveries_eq : deliveries session.trace = handled.map Session.delivered

/-- The session is the speaker of the conversation. -/
structure Converses (setup : Setup) (role : Role) (speaker : Speaker) (processed : List Bytes)
    (written : Bytes) (session : Session) : Prop where
  engaged : Engaged setup role speaker.said written (speaker.heard + 1)
    (stateAt role speaker.heard) processed session
  processed_eq : processed.length = speaker.heard
  response_eq : speaker.response = setup.response role

section Sending

variable {setup : Setup} {role : Role} {next : ℕ} {state : SessionState} {phrases : List Phrase}
  {phrase : Phrase} {written : Bytes} {handled : List Bytes} {session after : Session}
  {outgoing : Outgoing}

theorem Attends.send (attends : Attends setup role next state session)
    (fresh : outgoing.isResend = false) :
    Attends setup role next state (session.send outgoing) := by
  have keeps := @keeps_send session outgoing fresh
  have waits := @Session.waits_sendMessage
    (session.withFactory (outgoing.built session.msgFactory).2) outgoing.type
      (outgoing.built session.msgFactory).1 outgoing.isResend
  refine ⟨keeps.nextIn_eq.trans attends.nextIn_eq, keeps.state_eq.trans attends.state_eq, ?_,
    (Session.sameTexts_send session outgoing).testReqId_lt attends.testReqId_lt, ?_, ?_⟩
  · intro isInitiator
    rw [keeps.params_eq]
    exact attends.interval_eq isInitiator
  · intro off
    rw [keeps.established_eq] at off
    have heartbeat : (session.send outgoing).heartbeatTimer = session.heartbeatTimer :=
      waits.2.2 off
    have inbound : (session.send outgoing).inboundTimer = session.inboundTimer := waits.1
    rw [heartbeat, inbound]
    exact attends.idle off
  · have logout : (session.send outgoing).logoutTimer = session.logoutTimer := waits.2.1
    rw [logout]
    exact attends.noLogout

/-- The body of a phrase that is no message of the application fits. -/
theorem Recalls.fits (recalls : Recalls setup role phrases session) (proper : setup.Proper)
    (small : (fieldsText (phrase.fields (setup.params role))).length ≤ 2 ^ 19) :
    (fieldsText (session.msgFactory.bodyOf phrase.type
      (phrase.fields (setup.params role)))).length ≤ Framer.maxMessageSize := by
  rw [recalls.bodyOf_eq]
  refine proper.fits phrase.length_type_le ?_ small _
  rw [Clock.nowFix, recalls.times_eq]
  exact proper.time_le role _

theorem Engaged.send (engaged : Engaged setup role phrases written next state handled session)
    (presentable : (setup.params role).Presentable) (fresh : outgoing.isResend = false)
    (type_eq : outgoing.type = phrase.type)
    (fields_eq : outgoing.fields session.params = phrase.fields (setup.params role))
    (fits : (fieldsText (session.msgFactory.bodyOf phrase.type
      (phrase.fields (setup.params role)))).length ≤ Framer.maxMessageSize)
    (room : phrases.length + 1 < 2 ^ 63) :
    Engaged setup role (phrases ++ [phrase]) written next state handled
      (session.send outgoing) := by
  refine ⟨engaged.speaks.send presentable fresh type_eq fields_eq fits room,
    engaged.attends.send fresh, ?_⟩
  rw [(keeps_send fresh).deliveries_eq]
  exact engaged.deliveries_eq

/-- Once logged on, a session is as it was, up to its timers. -/
theorem Engaged.becomeActive
    (engaged : Engaged setup role phrases written next state handled session) :
    Engaged setup role phrases written next .active handled session.becomeActive := by
  refine ⟨engaged.speaks.of_voice session.voice_becomeActive,
    ⟨engaged.attends.nextIn_eq, rfl, engaged.attends.interval_eq, engaged.attends.testReqId_lt,
      fun off => ?_, engaged.attends.noLogout⟩, ?_⟩
  · exact absurd off (by simp [Session.becomeActive, Session.established,
      Session.scheduleHeartbeat, Session.scheduleTestRequestTimeout, Session.record,
      Session.withState])
  · have same : deliveries session.becomeActive.trace = deliveries session.trace := by
      simp [Session.becomeActive, Session.scheduleHeartbeat, Session.scheduleTestRequestTimeout,
        Session.record, Session.withState, Session.cancelLogonTimer, deliveries]
    rw [same]
    exact engaged.deliveries_eq

end Sending

section Hearing

variable {setup : Setup} {role : Role} {next interval : ℕ} {state : SessionState}
  {phrases : List Phrase} {phrase : Phrase} {written wire testReqId : Bytes} {handled : List Bytes}
  {session : Session} {view : ValidMessageView} {letter : Letter}

theorem Attends.prepared (attends : Attends setup role next state session) (message : Message) :
    Attends setup role next state (session.prepared message) := by
  rw [Session.prepared]
  split
  · next on =>
      refine ⟨attends.nextIn_eq, attends.state_eq, attends.interval_eq, attends.testReqId_lt, ?_,
        attends.noLogout⟩
      intro off
      exact absurd (off.symm.trans on) (by decide)
  · exact ⟨attends.nextIn_eq, attends.state_eq, attends.interval_eq, attends.testReqId_lt,
      attends.idle, attends.noLogout⟩

/-- The message whose turn it is is handed to its handler. -/
theorem Engaged.called (engaged : Engaged setup role phrases written next state handled session)
    (readBy : letter.ReadBy session wire) (turn : letter.number = next) (room : next + 1 < word64) :
    Engaged setup role phrases written (next + 1) state (handled ++ [wire])
      (((session.prepared (Parser.parse wire).1).updateIn (Session.numberOf wire + 1)).called
        letter.type (Session.viewOf wire)) := by
  have prepared := engaged.attends.prepared (Parser.parse wire).1
  have number : Session.numberOf wire = next := readBy.number_eq.trans turn
  refine ⟨?_, ⟨?_, prepared.state_eq, prepared.interval_eq, prepared.testReqId_lt, prepared.idle,
    prepared.noLogout⟩, ?_⟩
  · exact engaged.speaks.of_voice (by simp)
  · rw [number]
    exact Nat.mod_eq_of_lt room
  · have type_eq : (Session.viewOf wire).headerCache.msgType = some letter.type :=
      readBy.accepts.type_eq
    have kept := (session.keeps_prepared (Parser.parse wire).1).deliveries_eq
    have added : deliveries (((session.prepared (Parser.parse wire).1).updateIn
        (Session.numberOf wire + 1)).called letter.type (Session.viewOf wire)).trace =
          deliveries (session.prepared (Parser.parse wire).1).trace ++ [Session.delivered wire] := by
      simp only [Session.called, Session.record, deliveries_append]
      simp only [Session.delivered, type_eq, Option.getD_some]
      rfl
    rw [added, kept, engaged.deliveries_eq]
    simp

theorem Engaged.handleHeartbeat
    (engaged : Engaged setup role phrases written next state handled session) :
    Engaged setup role phrases written next state handled session.handleHeartbeat :=
  ⟨engaged.speaks.of_voice rfl, ⟨engaged.attends.nextIn_eq, engaged.attends.state_eq,
    engaged.attends.interval_eq, engaged.attends.testReqId_lt, engaged.attends.idle,
    engaged.attends.noLogout⟩, engaged.deliveries_eq⟩

theorem Engaged.handleTestRequest
    (engaged : Engaged setup role phrases written next state handled session)
    (proper : setup.Proper) (found : view.message.firstValue? 112 = some testReqId)
    (short : Phrase.Short testReqId) (room : phrases.length + 1 < 2 ^ 63) :
    Engaged setup role (phrases ++ [.heartbeat testReqId]) written next state handled
      (session.handleTestRequest view) := by
  have small := @Phrase.length_fields_le (setup.params role) (.heartbeat testReqId) (2 ^ 16) short
    (proper.encrypt_le role) (by intros; contradiction) (by intros; contradiction)
  simp only [Session.handleTestRequest, found]
  exact @Engaged.send _ _ _ _ _ (.heartbeat testReqId) _ _ _ (.heartbeat testReqId) engaged
    (proper.presentable role) rfl rfl rfl (engaged.speaks.fits proper (by omega)) room

theorem readableId_eq (recalls : Recalls setup role phrases session) :
    ascii "custom_response from" ++ session.readableId = setup.response role := by
  rcases SessionParameters.texts_of_unpaced recalls.params_eq with ⟨-, sender, target, -⟩
  simp only [Setup.response, Session.readableId, sender, target, recalls.id_eq, Session.new]

theorem Engaged.handleCustom
    (engaged : Engaged setup role phrases written next state handled session)
    (proper : setup.Proper) {payload : Bytes} (found : view.message.firstValue? 9250 = some payload)
    (room : phrases.length + 1 < 2 ^ 63) :
    Engaged setup role (phrases ++ (if (find Session.customResponse payload).isSome then []
      else [.custom (setup.response role)])) written next state handled
      (session.handleCustom view) := by
  simp only [Session.handleCustom, found, Option.getD_some]
  split
  · rw [List.append_nil]
    exact engaged
  · have response := proper.response_plain role
    have small := @Phrase.length_fields_le (setup.params role) (.custom (setup.response role))
      (2 ^ 18) ⟨response.1, response.2.1⟩ ((proper.encrypt_le role).trans (by decide))
      (by intros; contradiction) (by rintro payload ⟨⟩; exact response.2.2)
    rw [readableId_eq engaged.speaks.toRecalls]
    exact @Engaged.send _ _ _ _ _ (.custom (setup.response role)) _ _ _
      (.custom (setup.response role)) engaged (proper.presentable role) rfl rfl rfl
      (engaged.speaks.fits proper (by omega)) room

/-- The interval of the initiator is one that both sides take. -/
theorem validateHeartbeatInt_interval (proper : setup.Proper)
    (agreed : session.role = .initiator → session.params.heartBeatInt = setup.interval) :
    session.validateHeartbeatInt (toChars setup.interval) =
      (true, session.withInterval setup.interval) := by
  have ge := proper.interval_ge
  have le := proper.interval_le
  have read : (fromChars 32 (toChars setup.interval)).value.getD 0 = setup.interval := by
    rw [toChars_natCast, fromChars_decimal (by omega)]
    rfl
  simp only [Session.validateHeartbeatInt, read]
  split
  · next differs =>
      simp only [Bool.and_eq_true, decide_eq_true_eq] at differs
      exact absurd (agreed differs.1).symm differs.2
  split
  · next outside =>
      simp only [Bool.or_eq_true, decide_eq_true_eq] at outside
      omega
  · rfl

/-- The initiator is logged on when the acceptor has answered. -/
theorem Engaged.handleLogon_initiator
    (engaged : Engaged setup .initiator phrases written next state handled session)
    (proper : setup.Proper)
    (interval : view.message.firstValue? 108 = some (toChars setup.interval))
    (flag : view.message.firstValue? 141 = some (ascii (if setup.reset then "Y" else "N"))) :
    Engaged setup .initiator phrases written next .active handled (session.handleLogon view) := by
  have isInitiator := engaged.speaks.role_eq
  have agreed := validateHeartbeatInt_interval proper fun _ => engaged.attends.interval_eq rfl
  have paced : Engaged setup .initiator phrases written next state handled
      (session.withInterval setup.interval) :=
    ⟨engaged.speaks.of_voice rfl, ⟨engaged.attends.nextIn_eq, engaged.attends.state_eq,
      fun _ => rfl, engaged.attends.testReqId_lt, engaged.attends.idle, engaged.attends.noLogout⟩,
      engaged.deliveries_eq⟩
  have allowed : session.params.initiatorResetOnLogon = setup.reset :=
    (SessionParameters.texts_of_unpaced engaged.speaks.params_eq).2.2.2.2.1
  have role_eq : (session.withInterval setup.interval).role = .initiator := isInitiator
  have allowed' : (session.withInterval setup.interval).params.initiatorResetOnLogon =
      setup.reset := allowed
  simp only [Session.handleLogon, interval, agreed, role_eq, allowed', flag]
  rw [if_neg]
  · exact paced.becomeActive
  · cases setup.reset <;> decide

/-- The acceptor answers with the same Logon; resetting the numbers changes none of them. -/
theorem Engaged.handleLogon_acceptor
    (engaged : Engaged setup .acceptor [] written 2 .awaitingLogon handled session)
    (proper : setup.Proper)
    (interval : view.message.firstValue? 108 = some (toChars setup.interval))
    (flag : view.message.firstValue? 141 = some (ascii (if setup.reset then "Y" else "N"))) :
    Engaged setup .acceptor [.logon setup.reset setup.interval] written 2 .active handled
      (session.handleLogon view) := by
  have isAcceptor := engaged.speaks.role_eq
  have agreed := @validateHeartbeatInt_interval setup session proper
    fun isInitiator => by simp [isAcceptor] at isInitiator
  have le := proper.interval_le
  obtain ⟨received, receivedDef⟩ : ∃ received, received =
      (session.withInterval setup.interval).withState .logonReceived := ⟨_, rfl⟩
  have idle : received.heartbeatTimer.expired = [] ∧ received.heartbeatTimer.waiting = none ∧
      received.inboundTimer.expired = [] ∧ received.inboundTimer.waiting = none := by
    rw [receivedDef]
    exact engaged.attends.idle (by simp [Session.established, engaged.attends.state_eq])
  have ready : Engaged setup .acceptor [] written 2 .logonReceived handled received := by
    rw [receivedDef] at idle ⊢
    exact ⟨engaged.speaks.of_voice rfl, ⟨engaged.attends.nextIn_eq, rfl,
      (by intros; contradiction), engaged.attends.testReqId_lt, fun _ => idle,
      engaged.attends.noLogout⟩, engaged.deliveries_eq⟩
  have interval_eq : received.params.heartBeatInt = setup.interval := by
    rw [receivedDef]
    rfl
  -- The Logon of the acceptor, from a session with these numbers.
  have answered : ∀ numbered : Session,
      Engaged setup .acceptor [] written 2 .logonReceived handled numbered →
      numbered.params.heartBeatInt = setup.interval →
      Engaged setup .acceptor [.logon setup.reset setup.interval] written 2 .active handled
        (numbered.sendLogon setup.reset).becomeActive := by
    intro numbered engaged same
    have encrypt := (SessionParameters.texts_of_unpaced engaged.speaks.params_eq).2.2.2.1
    have small := @Phrase.length_fields_le (setup.params .acceptor)
      (.logon setup.reset setup.interval) (2 ^ 16) trivial (proper.encrypt_le _)
      (by rintro reset interval ⟨⟩; omega) (by intros; contradiction)
    have fields_eq : (Outgoing.logon setup.reset).fields numbered.params =
        (Phrase.logon setup.reset setup.interval).fields (setup.params .acceptor) := by
      simp only [Outgoing.fields, Phrase.fields, encrypt, same, toInt32_eq (by omega :
        setup.interval < 2 ^ 31)]
    exact (engaged.send (proper.presentable _) rfl rfl fields_eq
      (engaged.speaks.fits proper (by omega)) (by simp)).becomeActive
  have role_eq : (session.withInterval setup.interval).role = .acceptor := isAcceptor
  simp only [Session.handleLogon, interval, agreed, role_eq, ← receivedDef, flag]
  cases resets : setup.reset with
  | false =>
      rw [if_neg (by decide)]
      rw [resets] at answered
      exact answered received ready interval_eq
  | true =>
      have allowed : received.params.acceptorResetOnLogon = true :=
        (SessionParameters.texts_of_unpaced ready.speaks.params_eq).2.2.2.2.2.trans
          (proper.reset_allowed resets)
      have nextOut : received.seqProvider.nextOut = 1 := ready.speaks.nextOut_eq
      rw [if_pos (by decide), if_pos allowed]
      rw [resets] at answered
      refine answered _ ⟨ready.speaks.of_voice ?_, ⟨rfl, ready.attends.state_eq,
        (by intros; contradiction), ready.attends.testReqId_lt, fun _ => idle,
        ready.attends.noLogout⟩, ?_⟩ interval_eq
      · have numbers : (received.withSeqProvider received.seqProvider.acceptorReset).voice =
            received.voice := by
          simp [Session.voice, Session.withSeqProvider, SeqProvider.acceptorReset, nextOut]
        exact (Session.voice_record _ rfl).trans numbers
      · have same : deliveries (received.resetSequence received.seqProvider.acceptorReset).trace =
            deliveries received.trace := by
          simp [Session.resetSequence, Session.withSeqProvider, Session.record, deliveries]
        rw [same]
        exact ready.deliveries_eq

theorem Recalls.mirrors (recalls : Recalls setup role phrases session) (proper : setup.Proper) :
    session.params.Mirrors (setup.params role.peer) := by
  rcases SessionParameters.texts_of_unpaced recalls.params_eq with ⟨-, sender, target, -⟩
  have mirrors := proper.mirrors_peer role
  exact ⟨sender.trans mirrors.sender_eq, target.trans mirrors.target_eq⟩

/-- What the handler of a heard phrase does is what the speaker does. -/
theorem Engaged.handle {speaker : Speaker} (proper : setup.Proper)
    (engaged : Engaged setup role speaker.said written (speaker.heard + 2)
      (stateAt role speaker.heard) handled (session.called phrase.type view))
    (response_eq : speaker.response = setup.response role)
    (field_eq : ∀ tag, tag ∉ BuilderCall.frontTags → tag ≠ 10 → view.message.firstValue? tag =
      Message.firstValue? (phrase.fields (setup.params role.peer)) tag)
    (plain : phrase.Plain) (first : speaker.heard = 0 → phrase = .logon setup.reset setup.interval)
    (later : 0 < speaker.heard → phrase.isLogon = false)
    (silent : role = .acceptor → speaker.heard = 0 → speaker.said = [])
    (room : speaker.said.length + 1 < 2 ^ 63) :
    Engaged setup role (speaker.hear role phrase).said written (speaker.heard + 2) .active handled
      (session.handle phrase.type view) := by
  have logged : ∀ {phrase : Phrase}, phrase.isLogon = false →
      (speaker.heard = 0 → phrase = .logon setup.reset setup.interval) →
        stateAt role speaker.heard = .active := by
    intro other isOther opens
    cases heard : speaker.heard with
    | zero =>
        rw [opens heard] at isOther
        cases isOther
    | succ heard => cases role <;> rfl
  cases phrase with
  | logon reset interval =>
      have none : speaker.heard = 0 := by
        by_contra some
        exact absurd (later (Nat.pos_of_ne_zero some)) (by simp [Phrase.isLogon])
      rcases first none with ⟨⟩
      have found108 : view.message.firstValue? 108 = some (toChars setup.interval) := by
        rw [field_eq 108 (by decide) (by decide)]
        simp [Message.firstValue?, Phrase.fields]
      have found141 : view.message.firstValue? 141 =
          some (ascii (if setup.reset then "Y" else "N")) := by
        rw [field_eq 141 (by decide) (by decide)]
        simp [Message.firstValue?, Phrase.fields]
      rw [none] at engaged ⊢
      rw [Phrase.type, Session.handle_logon]
      cases role with
      | initiator =>
          simp only [Speaker.hear, Speaker.say, Speaker.reply, reduceCtorEq, if_false,
            List.append_nil]
          exact engaged.handleLogon_initiator proper found108 found141
      | acceptor =>
          simp only [Speaker.hear, Speaker.say, Speaker.reply, if_true, silent rfl none,
            List.nil_append]
          rw [silent rfl none] at engaged
          exact engaged.handleLogon_acceptor proper found108 found141
  | heartbeat testReqId =>
      rw [logged rfl first] at engaged
      rw [Phrase.type, Session.handle_heartbeat]
      simp only [Speaker.hear, Speaker.say, Speaker.reply, List.append_nil]
      exact engaged.handleHeartbeat
  | testRequest testReqId =>
      have found : view.message.firstValue? 112 = some testReqId := by
        rw [field_eq 112 (by decide) (by decide)]
        simp [Message.firstValue?, Phrase.fields]
      rw [logged rfl first] at engaged
      rw [Phrase.type, Session.handle_testRequest]
      exact engaged.handleTestRequest proper found plain.2 room
  | custom payload =>
      have found : view.message.firstValue? 9250 = some payload := by
        rw [field_eq 9250 (by decide) (by decide)]
        simp [Message.firstValue?, Phrase.fields]
      rw [logged rfl first] at engaged
      rw [Phrase.type, Session.handle_custom]
      simp only [Speaker.hear, Speaker.say, Speaker.reply, response_eq]
      exact engaged.handleCustom proper found room

/-- Processing the wire of the phrase that is next. -/
theorem Converses.hear {speaker : Speaker} {processed : List Bytes} (proper : setup.Proper)
    (converses : Converses setup role speaker processed written session)
    (spoken : Spoken setup role.peer (speaker.heard + 1) phrase wire) (plain : phrase.Plain)
    (first : speaker.heard = 0 → phrase = .logon setup.reset setup.interval)
    (later : 0 < speaker.heard → phrase.isLogon = false)
    (silent : role = .acceptor → speaker.heard = 0 → speaker.said = [])
    (room : speaker.said.length + 1 < 2 ^ 63) :
    Converses setup role (speaker.hear role phrase) (processed ++ [wire]) written
      (session.processWireMessage wire) := by
  have engaged := converses.engaged
  have running := engaged.speaks.piping.running
  have readBy := spoken.written.readBy (proper.presentable role.peer)
    (engaged.speaks.mirrors proper) (Phrase.legible_letter plain spoken.number_lt)
  have admitted : session.Admitted (Parser.parse wire).1 phrase.type := by
    refine ⟨readBy.accepts, ?_⟩
    intro app
    have other : phrase.isLogon = false := by
      cases phrase with
      | logon =>
          have isLogon : Session.isAppMessageType (ascii "A") = true := app
          exact absurd isLogon (by decide)
      | _ => rfl
    have state_eq := engaged.attends.state_eq
    cases heard : speaker.heard with
    | zero =>
        rw [first heard] at other
        cases other
    | succ heard =>
        rw [heard] at state_eq
        simp [Session.established, state_eq, stateAt]
  have turn : Session.numberOf wire = session.seqProvider.nextIn :=
    readBy.number_eq.trans engaged.attends.nextIn_eq.symm
  have number_lt := spoken.number_lt
  have called := engaged.called readBy rfl (by simp only [word64]; omega)
  have handled := Engaged.handle proper called converses.response_eq readBy.field_eq plain first
    later silent room
  have processed_eq := Session.processWireMessage_turn running readBy.noErrors admitted turn
    (by rw [handled.attends.state_eq]; decide)
  rw [processed_eq]
  have state_eq : stateAt role (speaker.hear role phrase).heard = .active := by
    cases role <;> rfl
  refine ⟨?_, by simp [converses.processed_eq, Speaker.hear], converses.response_eq⟩
  rw [state_eq]
  exact handled

end Hearing

end Conversation

end FixEngine
