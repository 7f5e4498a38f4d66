import FixEngine.Session.Outcomes

/-!
# The messages a session sends

Whatever a session does with a message is a sequence of three things: it sends a message, it
stops, or it changes members that neither a connection nor an outgoing message depends on.
`Performs` is that sequence, with a bound on what is sent in it, and `Replies` is the bound for
`dispatch`. A property of sessions that the three preserve is preserved by `dispatch`.
-/

namespace FixEngine

/-- A message to be sent. -/
inductive Outgoing
  | logon (resetSeqNums : Bool)
  | reject (refSeqNum reason tag : ℕ) (text : Bytes)
  | logout (reason : Bytes)
  | heartbeat (testReqId : Bytes)
  | testRequest (testReqId : Bytes)
  | resendRequest (beginSeqNo endSeqNo : ℕ)
  | custom (payload : Bytes)
  | app (message : Message) (msgType : Bytes)
  | gapFill (msgSeqNum newSeqNo : ℕ)
  | stored (index : MsgIndex) (wire : Bytes)

/-- The MsgType of an outgoing message. -/
def Outgoing.type : Outgoing → Bytes
  | .logon _ => ascii "A"
  | .reject _ _ _ _ => ascii "3"
  | .logout _ => ascii "5"
  | .heartbeat _ => ascii "0"
  | .testRequest _ => ascii "1"
  | .resendRequest _ _ => ascii "2"
  | .custom _ => MessageFactory.customType
  | .app _ msgType => msgType.take 8
  | .gapFill _ _ => ascii "4"
  | .stored index _ => index.msgType

/-- Messages that are sent again are not stored. -/
def Outgoing.isResend : Outgoing → Bool
  | .gapFill _ _ => true
  | .stored _ _ => true
  | _ => false

/-- The text of the message, and the factory that made it. -/
def Outgoing.built (factory : MessageFactory) : Outgoing → Bytes × MessageFactory
  | .logon resetSeqNums => factory.logon (toInt32 factory.params.heartBeatInt) resetSeqNums
  | .reject refSeqNum reason tag text => factory.reject refSeqNum reason tag text
  | .logout reason => factory.logout reason
  | .heartbeat testReqId => factory.heartBeat testReqId
  | .testRequest testReqId => factory.testRequest testReqId
  | .resendRequest beginSeqNo endSeqNo => factory.resendRequest beginSeqNo endSeqNo
  | .custom payload => factory.customMessage payload
  | .app message msgType => factory.fromApp message msgType
  | .gapFill msgSeqNum newSeqNo => factory.sequenceResetGapFill msgSeqNum newSeqNo
  | .stored index wire => factory.regenerateMessage wire index

/-- The fields of a message that is sent for the first time, after the header. -/
def Outgoing.fields (params : SessionParameters) : Outgoing → List Field
  | .logon resetSeqNums =>
      [⟨98, toChars params.encryptMethod⟩, ⟨141, ascii (if resetSeqNums then "Y" else "N")⟩,
        ⟨108, toChars (toInt32 params.heartBeatInt)⟩]
  | .reject refSeqNum reason tag text =>
      [⟨45, toChars (toInt64 refSeqNum)⟩] ++ (if tag ≠ 0 then [⟨371, toChars tag⟩] else []) ++
        [⟨373, toChars reason⟩] ++ (if text = [] then [] else [⟨58, text⟩])
  | .logout reason => if reason = [] then [] else [⟨58, reason⟩]
  | .heartbeat testReqId => if testReqId = [] then [] else [⟨112, testReqId⟩]
  | .testRequest testReqId => [⟨112, testReqId⟩]
  | .resendRequest beginSeqNo endSeqNo =>
      [⟨7, toChars (toInt64 beginSeqNo)⟩, ⟨16, toChars (toInt64 endSeqNo)⟩]
  | .custom payload => [⟨9250, payload⟩]
  | .app message _ => message
  | .gapFill _ _ => []
  | .stored _ _ => []

theorem Outgoing.built_eq {outgoing : Outgoing} (fresh : outgoing.isResend = false)
    (factory : MessageFactory) :
    outgoing.built factory = factory.build outgoing.type (outgoing.fields factory.params) := by
  cases outgoing with
  | gapFill => cases fresh
  | stored => cases fresh
  | _ => rfl

/-- Events that are no message sent and no fault of sending. -/
def Event.isCalm : Event → Bool
  | .sent _ _ _ => false
  | .fault reason =>
      reason ≠ .noConnection && reason ≠ .emptyWriteQueue && reason ≠ .storeSequence
  | _ => true

/-- The messages sent, with the types they were built with, in order. -/
def sentMessages (trace : List Event) : List (Bytes × Bytes) :=
  trace.filterMap fun event =>
    match event with
    | .sent type wire _ => some (type, wire)
    | _ => none

@[simp]
theorem sentMessages_append (front rest : List Event) :
    sentMessages (front ++ rest) = sentMessages front ++ sentMessages rest := by
  simp [sentMessages]

theorem sentTypes_eq (trace : List Event) : sentTypes trace = (sentMessages trace).map Prod.fst := by
  rw [sentTypes, sentMessages, List.map_filterMap]
  congr 1
  funext event
  cases event <;> rfl

/-- What sending depends on, the numbers apart. -/
structure Surroundings where
  id : ℕ
  stopped : Bool
  conn : Option ℕ
  writeQ : List PendingWrite
  writeInflight : Bool
  store : MessageStore
  clock : Clock
  fixVersion : Bytes
  senderCompId : Bytes
  targetCompId : Bytes
  encryptMethod : ℤ
  testReqId : ℕ

namespace Session

/-- What sending depends on in a session. -/
def surroundings (session : Session) : Surroundings :=
  ⟨session.id, session.stopped, session.conn, session.writeQ, session.writeInflight,
    session.store, session.clock, session.params.fixVersion, session.params.senderCompId,
    session.params.targetCompId, session.params.encryptMethod, session.testReqId⟩

/-- The message is built and sent. -/
def send (session : Session) (outgoing : Outgoing) : Session :=
  session.sendBuilt outgoing.type (outgoing.built session.msgFactory) outgoing.isResend

/-- Only members have changed that sending does not depend on. -/
structure Calm (before after : Session) : Prop where
  same : after.surroundings = before.surroundings
  trace_eq : ∃ events, after.trace = before.trace ++ events ∧ ∀ e ∈ events, e.isCalm = true

/-- `after` is reached from `before` by sending permitted messages, stopping and calm changes. -/
inductive Performs (permits : Outgoing → Prop) : Session → Session → Prop
  | calm {before after : Session} (calm : Calm before after) : Performs permits before after
  | send (session : Session) {outgoing : Outgoing} (permitted : permits outgoing) :
      Performs permits session (session.send outgoing)
  | stop (session : Session) : Performs permits session session.stop
  | trans {first second third : Session} (left : Performs permits first second)
      (right : Performs permits second third) : Performs permits first third

section Calm

variable {first second third session : Session}

theorem Calm.refl (session : Session) : Calm session session := ⟨rfl, [], by simp⟩

theorem Calm.trans (left : Calm first second) (right : Calm second third) : Calm first third := by
  rcases left.trace_eq with ⟨events, eventsEq, calm⟩
  rcases right.trace_eq with ⟨more, moreEq, calmMore⟩
  refine ⟨right.same.trans left.same, events ++ more, ?_, ?_⟩
  · rw [moreEq, eventsEq, List.append_assoc]
  · intro e mem
    rcases List.mem_append.mp mem with inFirst | inSecond
    · exact calm e inFirst
    · exact calmMore e inSecond

theorem Calm.stopped_eq (calm : Calm first second) : second.stopped = first.stopped :=
  congrArg Surroundings.stopped calm.same

theorem Calm.conn_eq (calm : Calm first second) : second.conn = first.conn :=
  congrArg Surroundings.conn calm.same

theorem Calm.writeQ_eq (calm : Calm first second) : second.writeQ = first.writeQ :=
  congrArg Surroundings.writeQ calm.same

theorem Calm.writeInflight_eq (calm : Calm first second) :
    second.writeInflight = first.writeInflight :=
  congrArg Surroundings.writeInflight calm.same

theorem Calm.store_eq (calm : Calm first second) : second.store = first.store :=
  congrArg Surroundings.store calm.same

theorem Calm.clock_eq (calm : Calm first second) : second.clock = first.clock :=
  congrArg Surroundings.clock calm.same

theorem Calm.fixVersion_eq (calm : Calm first second) :
    second.params.fixVersion = first.params.fixVersion :=
  congrArg Surroundings.fixVersion calm.same

theorem Calm.senderCompId_eq (calm : Calm first second) :
    second.params.senderCompId = first.params.senderCompId :=
  congrArg Surroundings.senderCompId calm.same

theorem Calm.targetCompId_eq (calm : Calm first second) :
    second.params.targetCompId = first.params.targetCompId :=
  congrArg Surroundings.targetCompId calm.same

theorem Calm.encryptMethod_eq (calm : Calm first second) :
    second.params.encryptMethod = first.params.encryptMethod :=
  congrArg Surroundings.encryptMethod calm.same

theorem Calm.id_eq (calm : Calm first second) : second.id = first.id :=
  congrArg Surroundings.id calm.same

theorem Calm.testReqId_eq (calm : Calm first second) : second.testReqId = first.testReqId :=
  congrArg Surroundings.testReqId calm.same

theorem Calm.readableId_eq (calm : Calm first second) : second.readableId = first.readableId := by
  rw [readableId, readableId, calm.id_eq, calm.senderCompId_eq, calm.targetCompId_eq]

theorem calm_record (session : Session) (event : Event) (calm : event.isCalm = true := by rfl) :
    Calm session (session.record event) :=
  ⟨rfl, [event], rfl, by simpa using calm⟩

theorem calm_recordFault (session : Session) (fault : Fault)
    (calm : (Event.fault fault).isCalm = true := by rfl) :
    Calm session (session.recordFault fault) :=
  session.calm_record _ calm

/-- The updates that record nothing. -/
theorem calm_of_same (same : second.surroundings = first.surroundings)
    (trace_eq : second.trace = first.trace) : Calm first second :=
  ⟨same, [], by simp [trace_eq]⟩

theorem calm_withState (session : Session) (state : SessionState) :
    Calm session (session.withState state) := calm_of_same rfl rfl

theorem calm_withCache (session : Session) (cache : RecoveryCache) :
    Calm session (session.withCache cache) := calm_of_same rfl rfl

theorem calm_withInterval (session : Session) (interval : ℕ) :
    Calm session (session.withInterval interval) := calm_of_same rfl rfl

theorem calm_withValidator (session : Session) (validator : Validator) :
    Calm session (session.withValidator validator) := calm_of_same rfl rfl

theorem calm_updateIn (session : Session) (seqNo : ℕ) :
    Calm session (session.updateIn seqNo) := calm_of_same rfl rfl

theorem calm_resetSequence (session : Session) (provider : SeqProvider) :
    Calm session (session.resetSequence provider) :=
  ⟨rfl, [.seqReset], rfl, by simp [Event.isCalm]⟩

theorem calm_scheduleHeartbeat (session : Session) : Calm session session.scheduleHeartbeat :=
  calm_of_same rfl rfl

theorem calm_scheduleIfEstablished (session : Session) :
    Calm session (if session.established then session.scheduleHeartbeat else session) := by
  split
  · exact session.calm_scheduleHeartbeat
  · exact .refl session

theorem calm_scheduleTestRequestTimeout (session : Session) :
    Calm session session.scheduleTestRequestTimeout := calm_of_same rfl rfl

theorem calm_scheduleLogoutTimeout (session : Session) :
    Calm session session.scheduleLogoutTimeout := calm_of_same rfl rfl

theorem calm_scheduleLogonTimeout (session : Session) (expected : SessionState) :
    Calm session (session.scheduleLogonTimeout expected) := calm_of_same rfl rfl

theorem calm_becomeActive (session : Session) : Calm session session.becomeActive :=
  ⟨rfl, [.logonAccepted], rfl, by simp [Event.isCalm]⟩

theorem calm_called (session : Session) (type : Bytes) (view : ValidMessageView) :
    Calm session (session.called type view) := session.calm_record _

theorem calm_cacheMessage (session : Session) (seqNum : ℕ) (raw : Bytes) :
    Calm session (session.cacheMessage seqNum raw) := by
  simp only [cacheMessage]
  refine Calm.trans ?_ (calm_withCache _ _)
  split
  · exact .refl session
  · exact session.calm_recordFault _

end Calm

section Sends

variable (session : Session)

theorem Calm.sentMessages_eq {before after : Session} (calm : Calm before after) :
    sentMessages after.trace = sentMessages before.trace := by
  rcases calm.trace_eq with ⟨events, traceEq, areCalm⟩
  have none : sentMessages events = [] := by
    rw [sentMessages, List.filterMap_eq_nil_iff]
    intro event mem
    have := areCalm event mem
    cases event <;> simp_all [Event.isCalm]
  rw [traceEq, sentMessages_append, none, List.append_nil]

theorem store_sendBytes (data : Bytes) : (session.sendBytes data).store = session.store := by
  simp only [sendBytes]
  split
  · rfl
  · rw [doWrite]
    split
    · rfl
    · split
      · rfl
      · split <;> rfl

theorem trace_doWrite : ∃ written, session.doWrite.trace = session.trace ++ written ∧
    ∀ e ∈ written, e = .fault .noConnection := by
  rw [doWrite]
  split
  · exact ⟨[], by simp⟩
  split
  · exact ⟨[], by simp⟩
  split
  · exact ⟨[.fault .noConnection], rfl, by simp⟩
  · exact ⟨[], by simp⟩

theorem trace_sendBytes (data : Bytes) :
    ∃ written, (session.sendBytes data).trace = session.trace ++ written ∧
      ∀ e ∈ written, e = .fault .noConnection := by
  simp only [sendBytes]
  split
  · exact ⟨[], by simp⟩
  · exact trace_doWrite _

/-- The assertion of the store about the number of a message that is sent. -/
def storeEvents (session : Session) (wire : Bytes) (isResend : Bool) : List Event :=
  if isResend || session.store.seqAssert wire then [] else [.fault .storeSequence]

/-- What `send_message_` records: faults of the write and the store, then the message. -/
theorem trace_sendMessage (running : session.stopped = false) (type wire : Bytes)
    (isResend : Bool) :
    ∃ written, (session.sendMessage type wire isResend).trace = session.trace ++ (written ++
        (session.storeEvents wire isResend ++ [.sent type wire isResend])) ∧
      ∀ e ∈ written, e = .fault .noConnection := by
  rcases session.trace_sendBytes wire with ⟨written, writtenEq, faults⟩
  refine ⟨written, ?_, faults⟩
  have timed : ∀ sent : Session,
      (if sent.established then sent.scheduleHeartbeat else sent).trace = sent.trace := by
    intro sent
    split <;> rfl
  have stored : (if isResend = true then session.sendBytes wire
      else (session.sendBytes wire).storeOutbound wire).trace =
        session.trace ++ (written ++ session.storeEvents wire isResend) := by
    cases isResend with
    | true => simp [storeEvents, writtenEq]
    | false =>
        simp only [storeEvents, storeOutbound, store_sendBytes, Bool.false_eq_true, if_false,
          Bool.false_or]
        split
        · simp [writtenEq]
        · simp [recordFault, record, writtenEq]
  rw [sendMessage, if_neg (by simp [running])]
  simp only [timed, record, stored, List.append_assoc]

theorem sentMessages_sendMessage (type wire : Bytes) (isResend : Bool) :
    sentMessages (session.sendMessage type wire isResend).trace =
      sentMessages session.trace ++ (if session.stopped then [] else [(type, wire)]) := by
  cases running : session.stopped with
  | true => simp [sendMessage, running]
  | false =>
      rcases session.trace_sendMessage running type wire isResend with ⟨written, traceEq, faults⟩
      have none : sentMessages (written ++ session.storeEvents wire isResend) = [] := by
        rw [sentMessages, List.filterMap_eq_nil_iff]
        intro e mem
        rcases List.mem_append.mp mem with fault | fault
        · rw [faults e fault]
        · rw [storeEvents] at fault
          split at fault
          · simp at fault
          · rw [List.mem_singleton.mp fault]
      rw [traceEq, ← List.append_assoc written, sentMessages_append, sentMessages_append, none]
      rfl

theorem sentMessages_send (outgoing : Outgoing) :
    sentMessages (session.send outgoing).trace = sentMessages session.trace ++
      (if session.stopped then []
        else [(outgoing.type, (outgoing.built session.msgFactory).1)]) :=
  sentMessages_sendMessage _ _ _ _

theorem seqProvider_sendBytes (data : Bytes) :
    (session.sendBytes data).seqProvider = session.seqProvider := by
  simp only [sendBytes]
  split
  · rfl
  · rw [doWrite]
    split
    · rfl
    · split
      · rfl
      · split <;> rfl

theorem seqProvider_storeOutbound (wire : Bytes) :
    (session.storeOutbound wire).seqProvider = session.seqProvider := by
  simp only [storeOutbound]
  split <;> rfl

theorem store_storeOutbound (wire : Bytes) :
    (session.storeOutbound wire).store = session.store.storeOutboundMessage wire := by
  simp only [storeOutbound]
  split <;> rfl

theorem seqProvider_sendMessage (type wire : Bytes) (isResend : Bool) :
    (session.sendMessage type wire isResend).seqProvider = session.seqProvider := by
  have stored : (if isResend = true then session.sendBytes wire
      else (session.sendBytes wire).storeOutbound wire).seqProvider = session.seqProvider := by
    split
    · exact session.seqProvider_sendBytes wire
    · rw [seqProvider_storeOutbound, seqProvider_sendBytes]
  have timed : ∀ sent : Session,
      (if sent.established then sent.scheduleHeartbeat else sent).seqProvider =
        sent.seqProvider := by
    intro sent
    split <;> rfl
  rw [sendMessage]
  split
  · rfl
  · exact (timed _).trans stored

theorem store_sendMessage (type wire : Bytes) (isResend : Bool) :
    (session.sendMessage type wire isResend).store =
      if session.stopped || isResend then session.store
      else session.store.storeOutboundMessage wire := by
  have stored : (if isResend = true then session.sendBytes wire
      else (session.sendBytes wire).storeOutbound wire).store =
        if isResend then session.store else session.store.storeOutboundMessage wire := by
    split
    · exact session.store_sendBytes wire
    · rw [store_storeOutbound, store_sendBytes]
  rw [sendMessage]
  cases running : session.stopped with
  | true => rfl
  | false =>
      simp only [Bool.false_eq_true, if_false, Bool.false_or]
      exact (calm_scheduleIfEstablished _).store_eq.trans stored

/-- The factory has counted the message. -/
theorem seqProvider_send (outgoing : Outgoing) :
    (session.send outgoing).seqProvider = (outgoing.built session.msgFactory).2.seqProvider :=
  seqProvider_sendMessage _ _ _ _

/-- What is sent for the first time is stored. -/
theorem store_send (outgoing : Outgoing) :
    (session.send outgoing).store =
      if session.stopped || outgoing.isResend then session.store
      else session.store.storeOutboundMessage (outgoing.built session.msgFactory).1 :=
  store_sendMessage _ _ _ _

theorem trace_stop : session.stop.trace = session.trace := by
  rw [stop]
  split
  · rfl
  · cases session.conn with
    | none => rfl
    | some conn =>
        simp only [dropWrites, closeConnection]
        split <;> rfl

end Sends

section Performs

variable {permits : Outgoing → Prop} {before after : Session}

theorem Performs.refl (session : Session) : Performs permits session session :=
  .calm (.refl session)

/-- The invariant rule. -/
theorem Performs.invariant {Inv : Session → Prop} (performs : Performs permits before after)
    (calm : ∀ before after, Calm before after → Inv before → Inv after)
    (send : ∀ session outgoing, permits outgoing → Inv session → Inv (session.send outgoing))
    (stop : ∀ session, Inv session → Inv session.stop) (inv : Inv before) : Inv after := by
  induction performs with
  | calm isCalm => exact calm _ _ isCalm inv
  | send session permitted => exact send session _ permitted inv
  | stop session => exact stop session inv
  | trans _ _ first second => exact second (first inv)

theorem Performs.sentMessages_grow (performs : Performs permits before after) :
    ∃ more, sentMessages after.trace = sentMessages before.trace ++ more := by
  refine @Performs.invariant permits before after
    (fun session => ∃ more, sentMessages session.trace = sentMessages before.trace ++ more)
    performs ?_ ?_ ?_ ⟨[], by simp⟩
  · intro earlier later calm ⟨more, moreEq⟩
    exact ⟨more, calm.sentMessages_eq.trans moreEq⟩
  · intro earlier outgoing _ ⟨more, moreEq⟩
    rw [sentMessages_send, moreEq, List.append_assoc]
    exact ⟨_, rfl⟩
  · intro earlier grown
    rw [trace_stop]
    exact grown

theorem Performs.mono {others : Outgoing → Prop} (performs : Performs permits before after)
    (weaker : ∀ outgoing, permits outgoing → others outgoing) : Performs others before after := by
  induction performs with
  | calm isCalm => exact .calm isCalm
  | send session permitted => exact .send session (weaker _ permitted)
  | stop session => exact .stop session
  | trans _ _ first second => exact first.trans second

/-- The reasons for a Logout that do not quote a message. -/
def fixedReasons : List Bytes :=
  [ascii "Invalid HeartBtInt value", resetNotAllowed, ascii "Logout acknowledged",
    ascii "NewSeqNo less than expected", ascii "MsgSeqNum too high during recovery",
    ascii "Cannot process app messages yet", ascii "Fatal validation error", ascii "Parse error",
    ascii "Parse error during recovery", ascii "No response to Test Request"]

theorem performs_stopWithLogout (session : Session) {reason : Bytes}
    (permitted : permits (.logout reason)) :
    Performs permits session (session.stopWithLogout reason) := by
  rw [stopWithLogout]
  split
  · exact .refl session
  · exact (Performs.send session permitted).trans
      (.calm ((calm_withState _ _).trans (calm_scheduleLogoutTimeout _)))

/-- What is sent from a store again. -/
structure Resends (permits : Outgoing → Prop) (store : MessageStore) : Prop where
  gapFill : ∀ msgSeqNum newSeqNo, permits (.gapFill msgSeqNum newSeqNo)
  stored : ∀ index ∈ store.outboundIndex, ResendStream.noResend index.msgType = false →
    permits (.stored index (store.getMessageWire index))

/-- What the handlers send for the first time. -/
structure Answers (permits : Outgoing → Prop) (session : Session) (message : Message) : Prop where
  logon : ∀ resetSeqNums, permits (.logon resetSeqNums)
  logout : ∀ reason ∈ fixedReasons, permits (.logout reason)
  heartbeat : ∀ testReqId, message.firstValue? 112 = some testReqId →
    permits (.heartbeat testReqId)
  custom : permits (.custom (ascii "custom_response from" ++ session.readableId))

theorem Answers.calm {message : Message} (answers : Answers permits before message)
    (calm : Calm before after) : Answers permits after message := by
  refine ⟨answers.logon, answers.logout, answers.heartbeat, ?_⟩
  rw [calm.readableId_eq]
  exact answers.custom

end Performs

section Resends

variable {permits : Outgoing → Prop} {session : Session}

theorem store_sendBuilt_resend (session : Session) (type : Bytes) (built : Bytes × MessageFactory) :
    (session.sendBuilt type built true).store = session.store := by
  rw [sendBuilt, store_sendMessage, Bool.or_true, if_pos rfl]
  rfl

theorem send_stored (session : Session) (index : MsgIndex) (wire : Bytes) :
    session.send (.stored index wire) =
      session.sendBuilt index.msgType (session.msgFactory.regenerateMessage wire index) true := rfl

theorem send_gapFill (session : Session) (msgSeqNum newSeqNo : ℕ) :
    session.send (.gapFill msgSeqNum newSeqNo) =
      session.sendSequenceResetGapFill msgSeqNum newSeqNo := rfl

/-- A message that is asked for again is sent again unless it is administrative. -/
theorem performs_resendStored {stream : ResendStream} (resends : Resends permits session.store)
    (same : stream.outboundIndex = session.store.outboundIndex)
    (small : stream.currentIndex < word32) (more : stream.hasNext = true)
    (other : stream.atAdmin = false) :
    Performs permits session (session.resendStored stream.currentIndex) ∧
      (session.resendStored stream.currentIndex).store = session.store := by
  cases found : session.store.getMessageIndex stream.currentIndex with
  | none =>
      simp only [resendStored, found]
      exact ⟨.calm (session.calm_recordFault _), rfl⟩
  | some index =>
      simp only [resendStored, found, ← send_stored]
      refine ⟨?_, session.store_sendBuilt_resend _ _⟩
      rw [MessageStore.getMessageIndex] at found
      split at found
      · cases found
      · have place : (stream.currentIndex + (word32 - 1)) % word32 = stream.currentIndex - 1 := by
          simp only [word32] at *
          omega
        have entry : stream.entry = some index := by
          rw [ResendStream.entry, place, same]
          exact found
        have appType : ResendStream.noResend index.msgType = false := by
          simpa [ResendStream.atAdmin, more, entry] using other
        exact .send session (resends.stored index (List.mem_of_getElem? found) appType)

/-- What a round of the answering loop does to the session. -/
def answerRound (session : Session) (stream : ResendStream) : Session :=
  let checked := if stream.entry.isNone then session.recordFault .storeIndex else session
  if stream.next.1.gapFill then
    checked.sendSequenceResetGapFill stream.next.1.beginSeqNo
      ((stream.next.1.endSeqNo + 1) % word32)
  else checked.resendStored stream.next.1.beginSeqNo

theorem answerResend_succ (rounds : ℕ) (stream : ResendStream) (session : Session) :
    answerResend (rounds + 1) stream session =
      if stream.hasNext then answerResend rounds stream.next.2 (session.answerRound stream)
      else session := rfl

theorem performs_answerRound {stream : ResendStream} (resends : Resends permits session.store)
    (same : stream.outboundIndex = session.store.outboundIndex)
    (small : stream.currentIndex < word32) (more : stream.hasNext = true) :
    Performs permits session (session.answerRound stream) ∧
      (session.answerRound stream).store = session.store := by
  have checked : ∃ ready, Calm session ready ∧
      (if stream.entry.isNone then session.recordFault .storeIndex else session) = ready := by
    refine ⟨_, ?_, rfl⟩
    split
    · exact session.calm_recordFault _
    · exact .refl session
  rcases checked with ⟨ready, calm, readyEq⟩
  rw [answerRound, readyEq]
  cases admin : stream.atAdmin with
  | true =>
      have filled : stream.next.1.gapFill = true := by simp [ResendStream.next, admin]
      rw [if_pos filled, ← send_gapFill]
      refine ⟨(Performs.calm calm).trans (.send ready (resends.gapFill _ _)), ?_⟩
      exact (ready.store_sendBuilt_resend _ _).trans calm.store_eq
  | false =>
      have next : stream.next.1 = ⟨stream.currentIndex, stream.currentIndex, false⟩ := by
        simp [ResendStream.next, admin]
      have resent := @performs_resendStored permits ready stream (by rwa [calm.store_eq])
        (by rwa [calm.store_eq]) small more admin
      rw [next]
      exact ⟨(Performs.calm calm).trans resent.1, resent.2.trans calm.store_eq⟩

theorem skipAdmin_spec (rounds : ℕ) {stream : ResendStream} (small : stream.currentIndex < word32) :
    (ResendStream.skipAdmin rounds stream).outboundIndex = stream.outboundIndex ∧
      (ResendStream.skipAdmin rounds stream).currentIndex < word32 := by
  induction rounds generalizing stream with
  | zero => exact ⟨rfl, small⟩
  | succ rounds ih =>
      rw [ResendStream.skipAdmin]
      split
      · have moved : stream.advance.currentIndex < word32 := Nat.mod_lt _ (by decide)
        exact ih moved
      · exact ⟨rfl, small⟩

theorem next_spec {stream : ResendStream} (small : stream.currentIndex < word32) :
    stream.next.2.outboundIndex = stream.outboundIndex ∧
      stream.next.2.currentIndex < word32 := by
  rw [ResendStream.next]
  split
  · exact skipAdmin_spec _ small
  · exact ⟨rfl, Nat.mod_lt _ (by decide)⟩

theorem performs_answerResend {rounds : ℕ} {stream : ResendStream}
    (resends : Resends permits session.store)
    (same : stream.outboundIndex = session.store.outboundIndex)
    (small : stream.currentIndex < word32) :
    Performs permits session (answerResend rounds stream session) := by
  induction rounds generalizing stream session with
  | zero =>
      rw [answerResend]
      split
      · exact .calm (session.calm_recordFault _)
      · exact .refl session
  | succ rounds ih =>
      rw [answerResend_succ]
      split
      · next more =>
          have round := performs_answerRound resends same small more
          have next := next_spec small
          refine round.1.trans (ih ?_ ?_ next.2)
          · rw [round.2]
            exact resends
          · rw [next.1, round.2]
            exact same
      · exact .refl session

end Resends

section Handlers

variable {permits : Outgoing → Prop} {session : Session} {view : ValidMessageView}

theorem send_heartbeat (session : Session) (testReqId : Bytes) :
    session.send (.heartbeat testReqId) = session.sendHeartbeat testReqId := rfl

theorem send_custom (session : Session) (payload : Bytes) :
    session.send (.custom payload) = session.sendCustom payload := rfl

theorem send_reject (session : Session) (refSeqNum reason tag : ℕ) (text : Bytes) :
    session.send (.reject refSeqNum reason tag text) =
      session.sendReject refSeqNum reason tag text := rfl

theorem send_resendRequest (session : Session) (beginSeqNo endSeqNo : ℕ) :
    session.send (.resendRequest beginSeqNo endSeqNo) =
      session.sendResendRequest beginSeqNo endSeqNo := rfl

theorem performs_handleLogon (answers : Answers permits session view.message) :
    Performs permits session (session.handleLogon view) := by
  have send : ∀ (ready : Session) reset, Calm session ready →
      Performs permits session (ready.sendLogon reset).becomeActive := by
    intro ready reset calm
    exact ((Performs.calm calm).trans (.send ready (answers.logon reset))).trans
      (.calm (calm_becomeActive _))
  have refuse : ∀ (ready : Session) reason, reason ∈ fixedReasons → Calm session ready →
      Performs permits session (ready.stopWithLogout reason) := by
    intro ready reason fixed calm
    exact (Performs.calm calm).trans
      (performs_stopWithLogout ready (answers.logout reason fixed))
  cases found : view.message.firstValue? 108 with
  | none =>
      simp only [handleLogon, found]
      exact .calm (session.calm_recordFault _)
  | some text =>
      rcases session.validateHeartbeatInt_cases text with refused | ⟨interval, -, -, taken⟩
      · simp only [handleLogon, found, refused]
        exact refuse session _ (by simp [fixedReasons]) (.refl session)
      · have timed := session.calm_withInterval interval
        simp only [handleLogon, found, taken]
        split
        · have received := timed.trans (calm_withState _ .logonReceived)
          split
          · split
            · exact send _ true (received.trans (calm_resetSequence _ _))
            · exact refuse _ _ (by simp [fixedReasons]) received
          · exact send _ false received
        · split
          · exact refuse _ _ (by simp [fixedReasons]) timed
          · exact .calm (timed.trans (calm_becomeActive _))

theorem performs_handleLogout (answers : Answers permits session view.message) :
    Performs permits session session.handleLogout := by
  rw [handleLogout]
  split
  · have cancelled : Calm session session.cancelLogoutTimer := calm_of_same rfl rfl
    exact (Performs.calm cancelled).trans (.stop _)
  · exact (Performs.send session (answers.logout _ (by simp [fixedReasons]))).trans (.stop _)

theorem performs_handleTestRequest (answers : Answers permits session view.message) :
    Performs permits session (session.handleTestRequest view) := by
  rw [handleTestRequest]
  split
  · exact .calm (session.calm_recordFault _)
  · next testReqId found =>
      rw [← send_heartbeat]
      exact .send session (answers.heartbeat testReqId found)

theorem performs_handleResendRequest (resends : Resends permits session.store) :
    Performs permits session (session.handleResendRequest view) := by
  rw [handleResendRequest]
  split
  · next beginText _ _ _ =>
      refine performs_answerResend resends rfl ?_
      cases read : (fromChars 32 beginText).value with
      | none => exact show 0 < word32 by decide
      | some value => exact fromChars_lt read
  · exact .calm (session.calm_recordFault _)
  · exact .calm (session.calm_recordFault _)

theorem performs_handleSequenceReset (answers : Answers permits session view.message) :
    Performs permits session (session.handleSequenceReset view) := by
  rw [handleSequenceReset]
  split
  · exact .calm (session.calm_recordFault _)
  · simp only []
    split
    · exact performs_stopWithLogout session (answers.logout _ (by simp [fixedReasons]))
    · exact .calm (session.calm_updateIn _)

theorem performs_handleCustom (answers : Answers permits session view.message) :
    Performs permits session (session.handleCustom view) := by
  simp only [handleCustom]
  split
  · exact .refl session
  · rw [← send_custom]
    exact .send session answers.custom

theorem performs_handle (type : Bytes) (answers : Answers permits session view.message)
    (resends : type = ascii "2" → Resends permits session.store) :
    Performs permits session (session.handle type view) := by
  have called := session.calm_called type view
  have calledAnswers := answers.calm called
  rw [handle]
  refine (Performs.calm called).trans ?_
  split
  · exact performs_handleLogon calledAnswers
  split
  · exact performs_handleLogout calledAnswers
  split
  · exact .calm (calm_of_same rfl rfl)
  split
  · exact performs_handleTestRequest calledAnswers
  split
  · next request => exact performs_handleResendRequest (resends request)
  split
  · rw [handleReject]
    split
    · exact .calm (calm_recordFault _ _)
    · exact .refl _
  split
  · exact performs_handleSequenceReset calledAnswers
  split
  · exact performs_handleCustom calledAnswers
  · exact .refl _

end Handlers

section Dispatch

variable {session : Session} {message : Message} {raw : Bytes}

/-- The messages `dispatch` can send. -/
inductive Replies (session : Session) (message : Message) (raw : Bytes) : Outgoing → Prop
  | logon (resetSeqNums : Bool) : Replies session message raw (.logon resetSeqNums)
  | reject (error : ValidatorErrorContext) (found : error ∈ (session.results message).errors) :
      Replies session message raw (.reject (makeValidMessageView message).headerCache.msgSeqNum
        error.code.code error.tag error.info)
  | logout (reason : Bytes) (fixed : reason ∈ fixedReasons) :
      Replies session message raw (.logout reason)
  | tooLow (type : Bytes) (admitted : session.Admitted message type)
      (behind : (makeValidMessageView message).headerCache.msgSeqNum < session.seqProvider.nextIn)
      (unmarked : (makeValidMessageView message).headerCache.possDupFlag ≠ some (ascii "Y")) :
      Replies session message raw (.logout (session.tooLowText
        (makeValidMessageView message).headerCache.msgSeqNum raw))
  | heartbeat (testReqId : Bytes) (found : message.firstValue? 112 = some testReqId) :
      Replies session message raw (.heartbeat testReqId)
  | resendRequest (type : Bytes) (admitted : session.Admitted message type)
      (ahead : session.seqProvider.nextIn < (makeValidMessageView message).headerCache.msgSeqNum) :
      Replies session message raw (.resendRequest session.seqProvider.nextIn
        ((makeValidMessageView message).headerCache.msgSeqNum - 1))
  | custom : Replies session message raw
      (.custom (ascii "custom_response from" ++ session.readableId))
  | gapFill (msgSeqNum newSeqNo : ℕ) : Replies session message raw (.gapFill msgSeqNum newSeqNo)
  | stored (admitted : session.Admitted message (ascii "2")) (index : MsgIndex)
      (mem : index ∈ session.store.outboundIndex)
      (resendable : ResendStream.noResend index.msgType = false) :
      Replies session message raw (.stored index (session.store.getMessageWire index))

theorem answers_replies (session : Session) (message : Message) (raw : Bytes) :
    Answers (Replies session message raw) session message :=
  ⟨.logon, .logout, .heartbeat, .custom⟩

theorem calm_beginRecovery (session : Session) (seqNum : ℕ) (raw : Bytes) :
    Calm (session.send (.resendRequest session.seqProvider.nextIn (seqNum - 1)))
      (session.beginRecovery seqNum raw) := by
  have absent : ((((session.send (.resendRequest session.seqProvider.nextIn (seqNum - 1))).withState
      .recoveringResend).withCache ((session.send (.resendRequest session.seqProvider.nextIn
        (seqNum - 1))).recoveryCache.start session.seqProvider.nextIn)).recoveryCache.contains
          seqNum) = false := not_contains_start _ _ _
  simp only [beginRecovery, ← send_resendRequest, absent, Bool.false_eq_true, if_false]
  exact ((calm_withState _ _).trans (calm_withCache _ _)).trans (calm_cacheMessage _ _ _)

/-- From the sequence checks on, where `ready` is the session whose timers are set. -/
theorem performs_checkSequence {type : Bytes} {ready : Session} (raw : Bytes)
    (admitted : session.Admitted message type) (calm : Calm session ready)
    (nextIn_eq : ready.seqProvider.nextIn = session.seqProvider.nextIn) :
    Performs (Replies session message raw) ready
      (ready.checkSequence type (makeValidMessageView message) raw) := by
  simp only [checkSequence, nextIn_eq]
  split
  · have turned := ready.calm_updateIn ((makeValidMessageView message).headerCache.msgSeqNum + 1)
    refine (Performs.calm turned).trans
      (performs_handle type ((answers_replies session message raw).calm (calm.trans turned)) ?_)
    intro request
    subst request
    rw [(calm.trans turned).store_eq]
    exact ⟨.gapFill, .stored admitted⟩
  next notNext =>
  split
  · next ahead =>
      split
      · split
        · split
          · exact .refl ready
          · exact .calm (ready.calm_cacheMessage _ raw)
        · exact performs_stopWithLogout ready (.logout _ (by simp [fixedReasons]))
      · refine Performs.trans (.send ready ?_) (.calm (calm_beginRecovery ready _ raw))
        rw [nextIn_eq]
        exact .resendRequest type admitted ahead
  · next notAhead =>
      split
      · exact .refl ready
      · next unmarked =>
          have text : ready.tooLowText (makeValidMessageView message).headerCache.msgSeqNum raw =
              session.tooLowText (makeValidMessageView message).headerCache.msgSeqNum raw := by
            rw [tooLowText, tooLowText, nextIn_eq]
          rw [text]
          exact performs_stopWithLogout ready (.tooLow type admitted (by omega) unmarked)

/-- The session that makes the sequence checks: the message is validated and the timer set. -/
def prepared (session : Session) (message : Message) : Session :=
  let validated := session.withValidator
    (session.validator.validateMessage (makeValidMessageView message) session.params)
  if validated.established then validated.scheduleTestRequestTimeout else validated

theorem calm_prepared (session : Session) (message : Message) :
    Calm session (session.prepared message) := by
  rw [prepared]
  split
  · exact (calm_withValidator _ _).trans (calm_scheduleTestRequestTimeout _)
  · exact calm_withValidator _ _

theorem keeps_prepared (session : Session) (message : Message) :
    Keeps session (session.prepared message) := by
  rw [prepared]
  split
  · exact (keeps_withValidator _ _).trans (keeps_scheduleTestRequestTimeout _)
  · exact keeps_withValidator _ _

theorem dispatchValid_prepared (session : Session) (message : Message) (type raw : Bytes) :
    (session.withValidator (session.validator.validateMessage (makeValidMessageView message)
        session.params)).dispatchValid type (makeValidMessageView message) raw =
      if !(session.prepared message).established && isAppMessageType type then
        (session.prepared message).stopWithLogout (ascii "Cannot process app messages yet")
      else (session.prepared message).checkSequence type (makeValidMessageView message) raw := rfl

theorem dispatch_prepared {type : Bytes} (running : session.stopped = false)
    (admitted : session.Admitted message type) (raw : Bytes) :
    session.dispatch message raw =
      (session.prepared message).checkSequence type (makeValidMessageView message) raw := by
  have notFatal := admitted.accepts.notFatal
  have noErrors := admitted.accepts.noErrors
  have same := (session.keeps_prepared message).established_eq
  have allowed : (!(session.prepared message).established && isAppMessageType type) = false := by
    rw [same]
    cases app : isAppMessageType type with
    | false => simp
    | true => simp [admitted.allowed app]
  simp only [results] at notFatal noErrors
  simp only [dispatch, running, Bool.false_eq_true, if_false, notFatal, noErrors,
    admitted.accepts.type_eq, admitted.accepts.numbered, dispatchValid_prepared, allowed]

theorem performs_dispatch (session : Session) (message : Message) (raw : Bytes) :
    Performs (Replies session message raw) session (session.dispatch message raw) := by
  have validated := session.calm_withValidator
    (session.validator.validateMessage (makeValidMessageView message) session.params)
  cases running : session.stopped with
  | true =>
      simp only [dispatch, running, if_true]
      exact .refl session
  | false =>
      by_cases admitted : ∃ type, session.Admitted message type
      · rcases admitted with ⟨type, admitted⟩
        rw [dispatch_prepared running admitted raw]
        exact (Performs.calm (session.calm_prepared message)).trans
          (performs_checkSequence raw admitted (session.calm_prepared message)
            (session.keeps_prepared message).nextIn_eq)
      · simp only [dispatch, running, Bool.false_eq_true, if_false]
        split
        · exact (Performs.calm validated).trans
            (performs_stopWithLogout _ (.logout _ (by simp [fixedReasons])))
        next notFatal =>
        split
        · next error rest errors =>
            refine (Performs.calm validated).trans ?_
            rw [← send_reject]
            exact .send _ (.reject error (by simp [results, errors]))
        next noErrors =>
        split
        · next type typeEq numbered =>
            have accepts : session.Accepts message type := ⟨notFatal, noErrors, typeEq, numbered⟩
            rw [dispatchValid_prepared]
            split
            · exact (Performs.calm (session.calm_prepared message)).trans
                (performs_stopWithLogout _ (.logout _ (by simp [fixedReasons])))
            · next allowed =>
                refine absurd ⟨type, accepts, fun app => ?_⟩ admitted
                rw [← (session.keeps_prepared message).established_eq]
                simpa [app] using allowed
        · exact .calm validated

end Dispatch

section Frames

variable (session : Session)

theorem performs_drainOne (message : Message) (raw : Bytes) :
    Performs (fun _ => True) session (session.drainOne message raw) := by
  have dispatched : Performs (fun _ => True) session (session.dispatch message raw) :=
    (session.performs_dispatch message raw).mono fun _ _ => trivial
  simp only [drainOne]
  split
  · exact dispatched.trans (.calm (calm_withCache _ _))
  · exact dispatched.trans (.calm ((calm_recordFault _ _).trans (calm_withCache _ _)))

/-- All that is done with a frame, the drain of the recovery cache included. -/
theorem performs_drainLoop (rounds : ℕ) :
    Performs (fun _ => True) session (drainLoop rounds session) := by
  induction rounds generalizing session with
  | zero => exact .calm (session.calm_recordFault _)
  | succ rounds ih =>
      simp only [drainLoop]
      split
      · split
        · exact (session.performs_drainOne _ _).trans (ih _)
        · exact (@Performs.send (fun _ => True) session
            (.logout (ascii "Parse error during recovery")) trivial).trans (.stop _)
      · split
        · exact .calm (session.calm_withState _)
        · exact .refl session

theorem performs_drainRecoveryCache :
    Performs (fun _ => True) session session.drainRecoveryCache := by
  rw [drainRecoveryCache]
  split
  · exact .refl session
  · exact session.performs_drainLoop _

theorem performs_processWireMessage (wire : Bytes) :
    Performs (fun _ => True) session (session.processWireMessage wire) := by
  have received : Performs (fun _ => True) session (session.receive wire) := by
    simp only [receive]
    split
    · exact (session.performs_dispatch _ _).mono fun _ _ => trivial
    · exact performs_stopWithLogout session trivial
  exact received.trans (performs_drainRecoveryCache _)

end Frames

end Session

end FixEngine
