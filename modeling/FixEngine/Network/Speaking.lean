import FixEngine.Network.Letters
import FixEngine.Network.Peers
import FixEngine.Outbound.Emission
import FixEngine.Outbound.Entries

/-!
# What a session has said

`Speaks` ties a session to a list of phrases: the messages it has sent are these phrases, numbered
from 1 in order and stamped with its own header, and the bytes its connection has taken, with the bytes
that wait in its queue, are the wires of these messages. Sending says one more phrase; what neither
sends nor counts leaves the `Voice` of the session as it is.
-/

namespace FixEngine

namespace Phrase

/-- The MsgType of a phrase. -/
def type : Phrase → Bytes
  | logon _ _ => ascii "A"
  | heartbeat _ => ascii "0"
  | testRequest _ => ascii "1"
  | custom _ => MessageFactory.customType

/-- The fields of a phrase behind the header. -/
def fields (params : SessionParameters) : Phrase → List Field
  | logon reset interval =>
      [⟨98, toChars params.encryptMethod⟩, ⟨141, ascii (if reset then "Y" else "N")⟩,
        ⟨108, toChars interval⟩]
  | heartbeat testReqId => if testReqId = [] then [] else [⟨112, testReqId⟩]
  | testRequest testReqId => [⟨112, testReqId⟩]
  | custom payload => [⟨9250, payload⟩]

/-- The phrase as a numbered message. -/
def letter (params : SessionParameters) (number : ℕ) (phrase : Phrase) : Letter :=
  ⟨phrase.type, number, phrase.fields params⟩

/-- The builder of the message. -/
def call : Phrase → BuilderCall
  | logon reset interval => .logon interval reset
  | heartbeat testReqId => .heartBeat testReqId
  | testRequest testReqId => .testRequest testReqId
  | custom payload => .customMessage payload

theorem fields_call (factory : MessageFactory) (phrase : Phrase) :
    phrase.call.fields factory = phrase.fields factory.params := by
  cases phrase <;> rfl

theorem length_type_le (phrase : Phrase) : phrase.type.length ≤ 2 := by
  cases phrase <;> simp [type, MessageFactory.customType, ascii]

theorem legible_letter {params : SessionParameters} {phrase : Phrase} {number : ℕ}
    (plain : phrase.Plain) (lt : number < 2 ^ 63) : (phrase.letter params number).Legible := by
  have texts : phrase.call.TextsPlain := by
    cases phrase with
    | logon reset interval => trivial
    | heartbeat testReqId => exact plain.1
    | testRequest testReqId => exact ⟨plain.1, plain.2.1⟩
    | custom payload => exact plain
  have fitting := fitting_call ⟨{}, params, {}, .standard⟩ texts
  rw [fields_call] at fitting
  refine ⟨⟨phrase.call.schema, ?_, fitting⟩, lt⟩
  have registered := phrase.call.get_schema
  cases phrase <;> exact registered

/-- The fields of everything but a message of the application are short. -/
theorem length_fields_le {params : SessionParameters} {phrase : Phrase} {width : ℕ}
    (plain : phrase.Plain) (encrypt_le : (toChars params.encryptMethod).length ≤ width)
    (interval_lt : ∀ reset interval, phrase = .logon reset interval → interval < 10 ^ 9)
    (payload_le : ∀ payload, phrase = .custom payload → payload.length ≤ width) :
    (fieldsText (phrase.fields params)).length ≤ width + 100 := by
  have widths : (decimal 98).length = 2 ∧ (decimal 141).length = 3 ∧ (decimal 108).length = 3 ∧
      (decimal 112).length = 3 ∧ (decimal 9250).length = 4 := by decide
  cases phrase with
  | logon reset interval =>
      have digits := length_decimal_le (by decide : 0 < 9) (interval_lt reset interval rfl)
      have flag : (ascii (if reset then "Y" else "N")).length = 1 := by cases reset <;> decide
      simp only [fields, fieldsText_cons, fieldsText_nil, List.append_nil, List.length_append,
        length_fieldText, widths, flag, toChars_natCast]
      omega
  | heartbeat testReqId =>
      have short := plain.2
      rw [fields]
      split
      · simp
      · simp only [fieldsText_cons, fieldsText_nil, List.append_nil, length_fieldText, widths]
        omega
  | testRequest testReqId =>
      have short := plain.2.2
      simp only [fields, fieldsText_cons, fieldsText_nil, List.append_nil, length_fieldText, widths]
      omega
  | custom payload =>
      have short := payload_le payload rfl
      simp only [fields, fieldsText_cons, fieldsText_nil, List.append_nil, length_fieldText, widths]
      omega

end Phrase

/-- Two sessions as they are configured, and the connection each of them has. -/
structure Setup where
  id : Role → ℕ
  params : Role → SessionParameters
  clock : Role → Clock
  conn : Role → ℕ

namespace Setup

/-- The interval both sides end up with. -/
def interval (setup : Setup) : ℕ := (setup.params .initiator).heartBeatInt

/-- Whether the Logon resets the numbers. -/
def reset (setup : Setup) : Bool := (setup.params .initiator).initiatorResetOnLogon

/-- The payload of the answers to Custom messages. -/
def response (setup : Setup) (role : Role) : Bytes :=
  ascii "custom_response from" ++
    (Session.new (setup.id role) role (setup.params role) (setup.clock role)).readableId

/-- The sides are configured for each other, with texts of a sane size. -/
structure Proper (setup : Setup) : Prop where
  presentable : ∀ role, (setup.params role).Presentable
  mirrors : (setup.params .initiator).Mirrors (setup.params .acceptor)
  interval_ge : 10 ≤ setup.interval
  interval_le : setup.interval ≤ 120
  reset_allowed : setup.reset = true → (setup.params .acceptor).acceptorResetOnLogon = true
  id_lt : ∀ role, setup.id role < word64
  sender_le : ∀ role, (setup.params role).senderCompId.length ≤ 2 ^ 16
  encrypt_le : ∀ role, (toChars (setup.params role).encryptMethod).length ≤ 2 ^ 16
  time_le : ∀ role n, ((setup.clock role).times n).length ≤ 2 ^ 16

variable {setup : Setup} {role : Role}

theorem Proper.mirrors_peer (proper : setup.Proper) (role : Role) :
    (setup.params role).Mirrors (setup.params role.peer) := by
  cases role with
  | initiator => exact proper.mirrors
  | acceptor => exact proper.mirrors.symm

theorem Proper.target_le (proper : setup.Proper) (role : Role) :
    (setup.params role).targetCompId.length ≤ 2 ^ 16 := by
  rw [(proper.mirrors_peer role).target_eq]
  exact proper.sender_le role.peer

/-- A body with short fields is one the framer takes. -/
theorem Proper.fits (proper : setup.Proper) {type time : Bytes} {fields : List Field}
    (type_le : type.length ≤ 2) (time_le : time.length ≤ 2 ^ 16)
    (small : (fieldsText fields).length ≤ 2 ^ 19) (number : ℕ) :
    (fieldsText (MessageFactory.headerFields (setup.params role) type number time ++
      fields)).length ≤ Framer.maxMessageSize := by
  have sender := proper.sender_le role
  have target := proper.target_le role
  have numberWidth := length_toChars_toInt64_le number
  have widths : ∀ tag ∈ [35, 34, 49, 56, 52], (decimal tag).length = 2 := by decide
  rw [MessageFactory.headerFields]
  generalize toChars (toInt64 number) = numberText at numberWidth
  simp only [fieldsText_append, fieldsText_cons, fieldsText_nil, List.append_nil,
    List.length_append, length_fieldText, widths 35 (by decide), widths 34 (by decide),
    widths 49 (by decide), widths 56 (by decide), widths 52 (by decide), Framer.maxMessageSize]
  omega

theorem Proper.response_plain (proper : setup.Proper) (role : Role) :
    setup.response role ≠ [] ∧ soh ∉ setup.response role ∧ (setup.response role).length ≤ 2 ^ 18 := by
  have fixed : soh ∉ ascii "custom_response from" ∧ soh ∉ ascii "<->" ∧ soh ∉ ascii " [" ∧
      soh ∉ ascii "]" := by decide
  have widths : (ascii "custom_response from").length = 20 ∧ (ascii "<->").length = 3 ∧
      (ascii " [").length = 2 ∧ (ascii "]").length = 1 := by decide
  have idWidth : (decimal (setup.id role)).length ≤ 20 := by
    have := proper.id_lt role
    exact length_decimal_le (by decide) (by simp only [word64] at this; omega)
  have sender := proper.sender_le role
  have target := proper.target_le role
  have plain := (proper.presentable role).plain
  refine ⟨?_, ?_, ?_⟩
  · intro empty
    have length := congrArg List.length empty
    rw [response, List.length_append, widths.1, List.length_nil] at length
    omega
  · simp only [response, Session.readableId, Session.new, List.mem_append, not_or]
    exact ⟨fixed.1, ⟨⟨⟨⟨plain.sender, fixed.2.1⟩, plain.target⟩, fixed.2.2.1⟩,
      soh_not_mem_decimal _⟩, fixed.2.2.2⟩
  · simp only [response, Session.readableId, Session.new, List.length_append, widths.1, widths.2.1,
      widths.2.2.1, widths.2.2.2]
    omega

end Setup

/-- The parameters, but for the interval. -/
def SessionParameters.unpaced (params : SessionParameters) : SessionParameters :=
  { params with heartBeatInt := 0 }

theorem SessionParameters.texts_of_unpaced {mine theirs : SessionParameters}
    (same : mine.unpaced = theirs.unpaced) :
    mine.fixVersion = theirs.fixVersion ∧ mine.senderCompId = theirs.senderCompId ∧
      mine.targetCompId = theirs.targetCompId ∧ mine.encryptMethod = theirs.encryptMethod ∧
      mine.initiatorResetOnLogon = theirs.initiatorResetOnLogon ∧
      mine.acceptorResetOnLogon = theirs.acceptorResetOnLogon := by
  simpa [unpaced] using same

/-- The members that a message leaves from, and what has been sent. -/
structure Voice where
  role : Role
  id : ℕ
  params : SessionParameters
  times : ℕ → Bytes
  stopped : Bool
  conn : Option ℕ
  writeQ : List PendingWrite
  writeInflight : Bool
  pendingWrites : List (ℕ × Bytes)
  reconnecting : Bool
  nextOut : ℕ
  store : MessageStore
  sent : List (Bytes × Bytes)

namespace Session

/-- The part of a session that what it sends depends on. -/
def voice (session : Session) : Voice :=
  ⟨session.role, session.id, session.params.unpaced, session.clock.times,
    session.stopped, session.conn, session.writeQ, session.writeInflight, session.pendingWrites,
    session.reconnecting, session.seqProvider.nextOut, session.store, sentMessages session.trace⟩

section Voice

variable (session : Session)

@[simp]
theorem voice_withState (state : SessionState) : (session.withState state).voice = session.voice :=
  rfl

@[simp]
theorem voice_withInterval (interval : ℕ) : (session.withInterval interval).voice = session.voice :=
  rfl

@[simp]
theorem voice_withFramer (framer : Framer) : (session.withFramer framer).voice = session.voice := rfl

@[simp]
theorem voice_updateIn (seqNo : ℕ) : (session.updateIn seqNo).voice = session.voice := rfl

@[simp]
theorem voice_scheduleHeartbeat : session.scheduleHeartbeat.voice = session.voice := rfl

@[simp]
theorem voice_scheduleTestRequestTimeout :
    session.scheduleTestRequestTimeout.voice = session.voice := rfl

@[simp]
theorem voice_scheduleLogonTimeout (expectedState : SessionState) :
    (session.scheduleLogonTimeout expectedState).voice = session.voice := rfl

@[simp]
theorem voice_handleHeartbeat : session.handleHeartbeat.voice = session.voice := rfl

@[simp]
theorem voice_expectResponse : session.expectResponse.voice = session.voice := rfl

@[simp]
theorem voice_withoutRead (place : ℕ) : (session.withoutRead place).voice = session.voice := rfl

@[simp]
theorem voice_expire (timer : TimerName) : (session.expire timer).voice = session.voice := by
  cases timer <;> rfl

/-- An event that is no message. -/
theorem voice_record {event : Event} (noMessage : sentMessages [event] = []) :
    (session.record event).voice = session.voice := by
  have same : sentMessages (session.trace ++ [event]) = sentMessages session.trace := by
    rw [sentMessages_append, noMessage, List.append_nil]
  simp only [voice, record, same]

@[simp]
theorem voice_called (type : Bytes) (view : ValidMessageView) :
    (session.called type view).voice = session.voice := session.voice_record rfl

@[simp]
theorem voice_becomeActive : session.becomeActive.voice = session.voice :=
  @voice_record (session.cancelLogonTimer.withState .active) .logonAccepted rfl

@[simp]
theorem voice_prepared (message : Message) : (session.prepared message).voice = session.voice := by
  rw [prepared]
  split <;> rfl

@[simp]
theorem voice_doRead {conn : ℕ} (connected : session.conn = some conn) :
    session.doRead.voice = session.voice := by
  rw [doRead]
  split
  · rfl
  · split
    · next lost => simp [connected] at lost
    · rfl

end Voice

/-- Sending does not touch the flag of a reconnect. -/
theorem reconnecting_doWrite (session : Session) :
    session.doWrite.reconnecting = session.reconnecting := by
  rw [doWrite]
  split
  · rfl
  split
  · rfl
  split <;> rfl

theorem reconnecting_send (session : Session) (outgoing : Outgoing) :
    (session.send outgoing).reconnecting = session.reconnecting := by
  have bytes : ∀ (queued : Session) data,
      (queued.sendBytes data).reconnecting = queued.reconnecting := by
    intro queued data
    simp only [sendBytes]
    split
    · rfl
    · exact reconnecting_doWrite _
  have stored : ∀ (queued : Session) wire,
      (queued.storeOutbound wire).reconnecting = queued.reconnecting := by
    intro queued wire
    simp only [storeOutbound]
    split <;> rfl
  have timed : ∀ queued : Session,
      (if queued.established then queued.scheduleHeartbeat else queued).reconnecting =
        queued.reconnecting := by
    intro queued
    split <;> rfl
  rw [send, sendBuilt, sendMessage]
  split
  · rfl
  · refine (timed _).trans ?_
    cases outgoing.isResend with
    | true => exact bytes _ _
    | false => exact (stored _ _).trans (bytes _ _)

/-- The queue after a message is the queue after its bytes. -/
theorem queue_sendMessage {session : Session} (running : session.stopped = false)
    (type wire : Bytes) (isResend : Bool) :
    (session.sendMessage type wire isResend).writeQ = (session.sendBytes wire).writeQ ∧
      (session.sendMessage type wire isResend).writeInflight =
        (session.sendBytes wire).writeInflight ∧
      (session.sendMessage type wire isResend).pendingWrites =
        (session.sendBytes wire).pendingWrites := by
  have stored : ∀ queued : Session,
      (queued.storeOutbound wire).writeQ = queued.writeQ ∧
        (queued.storeOutbound wire).writeInflight = queued.writeInflight ∧
        (queued.storeOutbound wire).pendingWrites = queued.pendingWrites := by
    intro queued
    simp only [storeOutbound]
    split <;> exact ⟨rfl, rfl, rfl⟩
  rw [sendMessage, if_neg (by simp [running])]
  cases isResend with
  | true =>
      simp only [if_true]
      split <;> exact ⟨rfl, rfl, rfl⟩
  | false =>
      simp only [Bool.false_eq_true, if_false]
      split <;> exact stored _

end Session

namespace Conversation

/-- The wire of a phrase, which the framer of the other side cuts out. -/
structure Spoken (setup : Setup) (role : Role) (number : ℕ) (phrase : Phrase) (wire : Bytes) :
    Prop where
  number_lt : number < 2 ^ 63
  dated : ∃ n, wire = wireOf fix44 ((phrase.letter (setup.params role) number).body
    (setup.params role) ((setup.clock role).times n))
  framed : Framed wire

theorem Spoken.written {setup : Setup} {role : Role} {number : ℕ} {phrase : Phrase} {wire : Bytes}
    (spoken : Spoken setup role number phrase wire) :
    (phrase.letter (setup.params role) number).Written (setup.params role) wire := by
  rcases spoken.dated with ⟨n, wireEq⟩
  exact ⟨_, (setup.clock role).times_ne_nil n, (setup.clock role).soh_not_mem_times n, wireEq⟩

/-- The session has sent the phrases. -/
structure Recalls (setup : Setup) (role : Role) (phrases : List Phrase) (session : Session) :
    Prop where
  running : session.stopped = false
  settled : session.reconnecting = false
  role_eq : session.role = role
  id_eq : session.id = setup.id role
  params_eq : session.params.unpaced = (setup.params role).unpaced
  times_eq : session.clock.times = (setup.clock role).times
  nextOut_eq : session.seqProvider.nextOut = phrases.length + 1
  length_eq : (sentMessages session.trace).length = phrases.length
  spoken : ∀ i phrase, phrases[i]? = some phrase → ∃ wire,
    (sentMessages session.trace)[i]? = some (phrase.type, wire) ∧
      Spoken setup role (i + 1) phrase wire
  /-- Until the store runs out of room it has what was sent. -/
  archived : ((sentMessages session.trace).map Prod.snd).flatten.length < MessageStore.maxStored →
    session.store.Archived ((sentMessages session.trace).map Prod.snd)

/-- And the connection has taken the bytes `written` of them. -/
structure Speaks (setup : Setup) (role : Role) (phrases : List Phrase) (written : Bytes)
    (session : Session) : Prop extends Recalls setup role phrases session where
  piping : Session.Piping (setup.conn role) session
  bytes_eq : written ++ session.waiting = ((sentMessages session.trace).map Prod.snd).flatten

section Speaks

variable {setup : Setup} {role : Role} {phrases : List Phrase} {phrase : Phrase} {written : Bytes}
  {session after : Session} {outgoing : Outgoing}

theorem Recalls.of_voice (recalls : Recalls setup role phrases session)
    (same : after.voice = session.voice) : Recalls setup role phrases after := by
  have sent_eq : sentMessages after.trace = sentMessages session.trace := congrArg Voice.sent same
  have store_eq : after.store = session.store := congrArg Voice.store same
  refine ⟨(congrArg Voice.stopped same).trans recalls.running,
    (congrArg Voice.reconnecting same).trans recalls.settled,
    (congrArg Voice.role same).trans recalls.role_eq, (congrArg Voice.id same).trans recalls.id_eq,
    (congrArg Voice.params same).trans recalls.params_eq,
    (congrArg Voice.times same).trans recalls.times_eq,
    (congrArg Voice.nextOut same).trans recalls.nextOut_eq, ?_, ?_, ?_⟩
  · rw [sent_eq]
    exact recalls.length_eq
  · rw [sent_eq]
    exact recalls.spoken
  · rw [sent_eq, store_eq]
    exact recalls.archived

theorem Speaks.of_voice (speaks : Speaks setup role phrases written session)
    (same : after.voice = session.voice) : Speaks setup role phrases written after := by
  have writeQ_eq : after.writeQ = session.writeQ := congrArg Voice.writeQ same
  have sent_eq : sentMessages after.trace = sentMessages session.trace := congrArg Voice.sent same
  have inflight_eq : after.writeInflight = session.writeInflight := congrArg Voice.writeInflight same
  have pending_eq : after.pendingWrites = session.pendingWrites := congrArg Voice.pendingWrites same
  have offer_eq : after.offer (setup.conn role) = session.offer (setup.conn role) := by
    rw [Session.offer, Session.offer, writeQ_eq]
  have waiting_eq : after.waiting = session.waiting := by
    rw [Session.waiting, Session.waiting, writeQ_eq]
  refine ⟨speaks.toRecalls.of_voice same, ⟨?_, ?_, ?_, ?_⟩, ?_⟩
  · exact (congrArg Voice.stopped same).trans speaks.piping.running
  · exact (congrArg Voice.conn same).trans speaks.piping.connected
  · rw [pending_eq, offer_eq]
    exact speaks.piping.outstanding
  · rw [inflight_eq, writeQ_eq]
    exact speaks.piping.inflight
  · rw [waiting_eq, sent_eq]
    exact speaks.bytes_eq

/-- The body of a phrase as the session would stamp it now. -/
theorem Recalls.bodyOf_eq (recalls : Recalls setup role phrases session) (type : Bytes)
    (fields : List Field) :
    session.msgFactory.bodyOf type fields = MessageFactory.headerFields (setup.params role) type
      (phrases.length + 1) session.clock.nowFix ++ fields := by
  rcases SessionParameters.texts_of_unpaced recalls.params_eq with ⟨-, sender, target, -⟩
  simp only [MessageFactory.bodyOf, MessageFactory.headerFields, Session.msgFactory, sender, target,
    recalls.nextOut_eq]

theorem keeps_send (fresh : outgoing.isResend = false) :
    Session.Keeps session (session.send outgoing) := by
  refine session.keeps_sendBuilt _ _ ?_ ?_
  · rw [Outgoing.built_eq fresh]
    simp [Session.msgFactory]
  · rw [Outgoing.built_eq fresh]
    simp [Session.msgFactory, SeqProvider.updateOut]

/-- The message of a phrase. -/
theorem Recalls.sent (recalls : Recalls setup role phrases session)
    (presentable : (setup.params role).Presentable) (fresh : outgoing.isResend = false)
    (type_eq : outgoing.type = phrase.type)
    (fields_eq : outgoing.fields session.params = phrase.fields (setup.params role))
    (fits : (fieldsText (session.msgFactory.bodyOf phrase.type
      (phrase.fields (setup.params role)))).length ≤ Framer.maxMessageSize)
    (room : phrases.length + 1 < 2 ^ 63) :
    Spoken setup role (phrases.length + 1) phrase (outgoing.built session.msgFactory).1 ∧
      (outgoing.built session.msgFactory).2.seqProvider.nextOut = phrases.length + 2 ∧
      sentMessages (session.send outgoing).trace = sentMessages session.trace ++
        [(phrase.type, (outgoing.built session.msgFactory).1)] := by
  have limit : Framer.maxMessageSize < 10 ^ 10 := by decide
  have builtEq : outgoing.built session.msgFactory = session.msgFactory.build phrase.type
      (phrase.fields (setup.params role)) := by
    rw [Outgoing.built_eq fresh, type_eq, ← fields_eq]
    rfl
  have wireEq : (outgoing.built session.msgFactory).1 =
      wireOf fix44 ((phrase.letter (setup.params role) (phrases.length + 1)).body
        (setup.params role) session.clock.nowFix) := by
    have version : session.msgFactory.params.fixVersion = fix44 :=
      (SessionParameters.texts_of_unpaced recalls.params_eq).1.trans presentable.version
    rw [builtEq, MessageFactory.build_wire _ _ _ (by omega), version, recalls.bodyOf_eq]
    rfl
  refine ⟨⟨room, ⟨session.clock.calls, ?_⟩, ?_⟩, ?_, ?_⟩
  · rw [wireEq, Clock.nowFix, recalls.times_eq]
  · rw [wireEq]
    rw [recalls.bodyOf_eq] at fits
    exact framed_wireOf fits
  · rw [builtEq, MessageFactory.seqProvider_build]
    simp only [Session.msgFactory, SeqProvider.updateOut, recalls.nextOut_eq]
    exact Nat.mod_eq_of_lt (by simp only [word64]; omega)
  · rw [Session.sentMessages_send, recalls.running, type_eq]
    rfl

/-- Sending a phrase. -/
theorem Recalls.send (recalls : Recalls setup role phrases session)
    (presentable : (setup.params role).Presentable) (fresh : outgoing.isResend = false)
    (type_eq : outgoing.type = phrase.type)
    (fields_eq : outgoing.fields session.params = phrase.fields (setup.params role))
    (fits : (fieldsText (session.msgFactory.bodyOf phrase.type
      (phrase.fields (setup.params role)))).length ≤ Framer.maxMessageSize)
    (room : phrases.length + 1 < 2 ^ 63) :
    Recalls setup role (phrases ++ [phrase]) (session.send outgoing) := by
  rcases recalls.sent presentable fresh type_eq fields_eq fits room with ⟨new, nextOut, sent⟩
  have keeps := @keeps_send session outgoing fresh
  have texts := Session.sameTexts_send session outgoing
  refine ⟨keeps.stopped_eq.trans recalls.running,
    (session.reconnecting_send outgoing).trans recalls.settled, keeps.role_eq.trans recalls.role_eq,
    keeps.id_eq.trans recalls.id_eq, ?_, texts.times_eq.trans recalls.times_eq, ?_, ?_, ?_, ?_⟩
  · rw [keeps.params_eq]
    exact recalls.params_eq
  · rw [Session.seqProvider_send, nextOut, List.length_append, List.length_singleton]
  · rw [sent, List.length_append, List.length_append, recalls.length_eq]
    rfl
  · intro i later found
    rw [sent]
    rcases Nat.lt_or_ge i phrases.length with inside | behind
    · rw [List.getElem?_append_left inside] at found
      rcases recalls.spoken i later found with ⟨earlier, sentEarlier, spoken⟩
      refine ⟨earlier, ?_, spoken⟩
      rw [List.getElem?_append_left (by rw [recalls.length_eq]; exact inside)]
      exact sentEarlier
    · rw [List.getElem?_append_right behind] at found
      have last : i = phrases.length := by
        by_contra differs
        rw [List.getElem?_eq_none (by simp only [List.length_singleton]; omega)] at found
        cases found
      subst last
      rw [Nat.sub_self, List.getElem?_cons_zero, Option.some.injEq] at found
      subst found
      refine ⟨_, ?_, new⟩
      rw [List.getElem?_append_right (by rw [recalls.length_eq]), recalls.length_eq, Nat.sub_self]
      rfl
  · have store : (session.send outgoing).store =
        session.store.storeOutboundMessage (outgoing.built session.msgFactory).1 := by
      rw [Session.store_send, recalls.running, fresh]
      rfl
    intro small
    rw [sent, List.map_append, List.flatten_append, List.length_append] at small
    rw [store, sent, List.map_append]
    simp only [List.map_cons, List.map_nil, List.flatten_cons, List.flatten_nil,
      List.append_nil] at small
    exact (recalls.archived (by omega)).storeOutboundMessage _ small

theorem Speaks.send (speaks : Speaks setup role phrases written session)
    (presentable : (setup.params role).Presentable) (fresh : outgoing.isResend = false)
    (type_eq : outgoing.type = phrase.type)
    (fields_eq : outgoing.fields session.params = phrase.fields (setup.params role))
    (fits : (fieldsText (session.msgFactory.bodyOf phrase.type
      (phrase.fields (setup.params role)))).length ≤ Framer.maxMessageSize)
    (room : phrases.length + 1 < 2 ^ 63) :
    Speaks setup role (phrases ++ [phrase]) written (session.send outgoing) := by
  rcases speaks.toRecalls.sent presentable fresh type_eq fields_eq fits room with ⟨-, -, sent⟩
  obtain ⟨wire, wireDef⟩ : ∃ wire, wire = (outgoing.built session.msgFactory).1 := ⟨_, rfl⟩
  have keeps := @keeps_send session outgoing fresh
  have running : (session.withFactory (outgoing.built session.msgFactory).2).stopped = false :=
    speaks.piping.running
  have queue := Session.queue_sendMessage running outgoing.type wire outgoing.isResend
  have piping : Session.Piping (setup.conn role)
      (session.withFactory (outgoing.built session.msgFactory).2) :=
    ⟨speaks.piping.running, speaks.piping.connected, speaks.piping.outstanding,
      speaks.piping.inflight⟩
  have written' := Session.piping_sendBytes piping wire
  have sendEq : session.send outgoing = (session.withFactory (outgoing.built
      session.msgFactory).2).sendMessage outgoing.type wire outgoing.isResend := by
    rw [Session.send, Session.sendBuilt, wireDef]
  rw [← sendEq] at queue
  refine ⟨speaks.toRecalls.send presentable fresh type_eq fields_eq fits room,
    ⟨keeps.stopped_eq.trans speaks.piping.running, keeps.conn_eq.trans speaks.piping.connected,
      ?_, ?_⟩, ?_⟩
  · rw [queue.2.2, written'.1.outstanding, Session.offer, Session.offer, queue.1]
  · rw [queue.2.1, queue.1]
    exact written'.1.inflight
  · have waiting : (session.send outgoing).waiting = session.waiting ++ wire := by
      rw [Session.waiting, queue.1]
      exact written'.2
    rw [waiting, sent, ← wireDef, ← List.append_assoc, speaks.bytes_eq]
    simp

end Speaks

end Conversation

end FixEngine
