import FixEngine.Outbound.Numbering
import FixEngine.Outbound.Regenerate
import FixEngine.Outbound.Stored

/-!
# Everything that is sent can be read

A message of a session is a stamped header, the fields of its type and a trailer. Reading it gives
these fields back as long as no value has a delimiter in it, and every text a session puts into a
field is fixed, printed, or the value of a field that was read, with one exception: the Logout that
refuses an old number quotes the whole message. A message that is sent again is made from the store,
which has to lead back to the wire that was stored.
-/

namespace FixEngine

/-- The tags `stamp_header_` and `stamp_trailer_` write. -/
def stampedTags : List ℕ := [8, 9, 35, 34, 49, 56, 52, 10]

/-- The parser reads a message with one header and one trailer, of the intended type. -/
structure Emittable (type wire : Bytes) : Prop where
  noErrors : (Parser.parse wire).2 = []
  once : ∀ tag ∈ stampedTags, (Parser.parse wire).1.countP (·.tag = tag) = 1
  typed : (Parser.parse wire).1.firstValue? 35 = some type

section Wire

variable {params : SessionParameters} {type time : Bytes} {number : ℕ} {fields : List Field}

theorem emittable_wireOf (presentable : params.Presentable) (type_ne_nil : type ≠ [])
    (noType : soh ∉ type) (time_ne_nil : time ≠ []) (noTime : soh ∉ time)
    (wellFormed : ∀ field ∈ fields, field.WellFormed)
    (others : ∀ field ∈ fields, field.tag ∉ stampedTags) :
    Emittable type
      (wireOf fix44 (MessageFactory.headerFields params type number time ++ fields)) := by
  have bodyFormed : ∀ field ∈ MessageFactory.headerFields params type number time ++ fields,
      field.WellFormed := by
    intro field mem
    rcases List.mem_append.mp mem with header | later
    · exact MessageFactory.wellFormed_headerFields type_ne_nil noType presentable.sender_ne_nil
        presentable.plain.sender presentable.target_ne_nil presentable.plain.target time_ne_nil
        noTime field header
    · exact wellFormed field later
  have read := parse_wireOf bodyFormed
  have absent : ∀ tag ∈ stampedTags, fields.countP (·.tag = tag) = 0 := by
    intro tag mem
    rw [List.countP_eq_zero]
    intro field inFields same
    exact others field inFields (by rwa [of_decide_eq_true same])
  refine ⟨by rw [read], ?_, ?_⟩
  · intro tag mem
    have none := absent tag mem
    rw [read, parsedFields, MessageFactory.headerFields]
    simp only [stampedTags, List.mem_cons, List.not_mem_nil, or_false] at mem
    simp only [List.cons_append, List.nil_append, List.countP_cons, List.countP_append, none,
      List.countP_nil]
    rcases mem with rfl | rfl | rfl | rfl | rfl | rfl | rfl | rfl <;> simp
  · rw [read]
    simp [parsedFields, MessageFactory.headerFields, Message.firstValue?]

end Wire

section Resent

variable {params : SessionParameters} {type time wire : Bytes} {number width : ℕ}
  {fields : List Field} {factory : MessageFactory}

/-- A stored wire that can be sent again with a time of the given width. -/
def Stamped (width : ℕ) (wire : Bytes) : Prop :=
  ∃ (params : SessionParameters) (type : Bytes) (number : ℕ) (time : Bytes) (fields : List Field),
    params.Presentable ∧ MessageFactory.Regenerable params type time fields ∧
      Session.Composable type fields ∧ time ≠ [] ∧ time.length = width ∧
      wire = wireOf fix44 (MessageFactory.headerFields params type number time ++ fields)

/-- The fields PossDupFlag and OrigSendingTime can be added to the fields of a message. -/
theorem marked_ok (noTime : soh ∉ time) (time_ne_nil : time ≠ []) :
    ∀ field ∈ ([⟨43, ascii "Y"⟩, ⟨122, time⟩] : List Field),
      field.WellFormed ∧ field.tag ∉ stampedTags := by
  intro field mem
  simp only [List.mem_cons, List.not_mem_nil, or_false] at mem
  rcases mem with rfl | rfl
  · exact ⟨⟨by norm_num, by decide, by decide⟩, by simp [stampedTags]⟩
  · exact ⟨⟨by norm_num, time_ne_nil, noTime⟩, by simp [stampedTags]⟩

theorem Session.Composable.unstamped (composable : Session.Composable type fields) :
    ∀ field ∈ fields, field.tag ∉ stampedTags := by
  intro field mem stamped
  apply composable.others field mem
  simp only [stampedTags, List.mem_cons, List.not_mem_nil, or_false] at stamped ⊢
  omega

theorem length_marked (time : Bytes) :
    (fieldsText [⟨43, ascii "Y"⟩, ⟨122, time⟩]).length = time.length + 10 := by
  have widths : (decimal 43).length = 2 ∧ (decimal 122).length = 3 ∧ (ascii "Y").length = 1 := by
    decide
  simp [length_fieldText, widths.1, widths.2.1, widths.2.2]
  omega

/-- A stored message is sent again as a readable message of its type. -/
theorem emittable_regenerated (stamped : Stamped width wire)
    (version : factory.params.fixVersion = fix44) (sameWidth : factory.clock.nowFix.length = width)
    (off : ℕ) :
    Emittable (createMessageIndex wire off).msgType
      (factory.regenerateMessage wire (createMessageIndex wire off)).1 := by
  rcases stamped with ⟨params, type, number, time, fields, presentable, regenerable, composable,
    time_ne_nil, widthEq, rfl⟩
  have time_lt := regenerable.time_lt
  have small := composable.small
  have short : type.length ≤ 2 := composable.short
  have entry := (MessageFactory.index_times regenerable number presentable.version off).1
  rw [List.take_of_length_le short] at entry
  have fits : (fieldsText (MessageFactory.headerFields params type number factory.clock.nowFix ++
      (fields ++ [⟨43, ascii "Y"⟩, ⟨122, time⟩]))).length < 10 ^ 10 := by
    refine length_stamped_lt regenerable.sender_lt regenerable.target_lt (by omega) ?_ ?_
    · simp only [word16] at time_lt
      omega
    · rw [fieldsText_append, List.length_append, length_marked]
      simp only [word16] at time_lt
      omega
  have regenerated := @MessageFactory.regenerateMessage_stamped params type time number fields
    factory regenerable presentable.version version (sameWidth.trans widthEq.symm) fits off
  have added := marked_ok regenerable.noTime time_ne_nil
  rw [entry, regenerated]
  refine emittable_wireOf presentable composable.type_ne_nil composable.noType
    (factory.clock.times_ne_nil _) (factory.clock.soh_not_mem_times _) ?_ ?_
  · intro field mem
    rcases List.mem_append.mp mem with old | new
    · exact composable.wellFormed field old
    · exact (added field new).1
  · intro field mem
    rcases List.mem_append.mp mem with old | new
    · exact composable.unstamped field old
    · exact (added field new).2

theorem emittable_gapFill (presentable : factory.params.Presentable)
    (sender_lt : factory.params.senderCompId.length < 10 ^ 9)
    (target_lt : factory.params.targetCompId.length < 10 ^ 9)
    (time_lt : ∀ n, (factory.clock.times n).length < word16) (msgSeqNum newSeqNo : ℕ) :
    Emittable (ascii "4") (factory.sequenceResetGapFill msgSeqNum newSeqNo).1 := by
  have number := length_toChars_toInt64_le newSeqNo
  have widths : (decimal 123).length = 3 ∧ (decimal 36).length = 2 ∧ (ascii "Y").length = 1 := by
    decide
  have now : factory.clock.nowFix.length < word16 := time_lt _
  have later : factory.clock.tick.nowFix.length < word16 := time_lt _
  have numbered : Field.WellFormed ⟨36, toChars (toInt64 newSeqNo)⟩ :=
    MessageFactory.wellFormed_number (by norm_num) _
  have added := marked_ok (factory.clock.tick.soh_not_mem_times factory.clock.tick.calls)
    (factory.clock.tick.times_ne_nil factory.clock.tick.calls)
  have wire := factory.sequenceResetGapFill_wire msgSeqNum newSeqNo
  generalize toChars (toInt64 newSeqNo) = numberText at number numbered wire
  rw [wire, presentable.version]
  · refine emittable_wireOf presentable (by decide) (by decide) (factory.clock.times_ne_nil _)
      (factory.clock.soh_not_mem_times _) ?_ ?_
    · intro field mem
      rcases List.mem_cons.mp mem with rfl | mem
      · exact ⟨by norm_num, by decide, by decide⟩
      rcases List.mem_cons.mp mem with rfl | mem
      · exact numbered
      · exact (added field mem).1
    · intro field mem
      rcases List.mem_cons.mp mem with rfl | mem
      · simp [stampedTags]
      rcases List.mem_cons.mp mem with rfl | mem
      · simp [stampedTags]
      · exact (added field mem).2
  · refine length_stamped_lt sender_lt target_lt (by decide) ?_ ?_
    · simp only [word16] at now
      omega
    · rw [fieldsText_cons, fieldsText_cons, List.length_append, List.length_append, length_fieldText,
        length_fieldText, length_marked, widths.1, widths.2.1, widths.2.2]
      simp only [word16] at later ⊢
      omega

end Resent

namespace Session

/-- Nothing is sent. -/
structure Mute (before after : Session) : Prop where
  texts : SameTexts before after
  store_eq : after.store = before.store
  trace_eq : ∃ events, after.trace = before.trace ++ events ∧
    ∀ e ∈ events, ∀ type wire isResend, e ≠ .sent type wire isResend

section Mute

variable {first second third session : Session}

theorem Mute.refl (session : Session) : Mute session session := ⟨.refl session, rfl, [], by simp⟩

theorem Mute.trans (left : Mute first second) (right : Mute second third) : Mute first third := by
  rcases left.trace_eq with ⟨events, eventsEq, mute⟩
  rcases right.trace_eq with ⟨more, moreEq, muteMore⟩
  refine ⟨left.texts.trans right.texts, right.store_eq.trans left.store_eq, events ++ more, ?_, ?_⟩
  · rw [moreEq, eventsEq, List.append_assoc]
  · intro e mem
    rcases List.mem_append.mp mem with inFirst | inSecond
    · exact mute e inFirst
    · exact muteMore e inSecond

theorem Mute.of_calm (calm : Calm first second) : Mute first second := by
  rcases calm.trace_eq with ⟨events, traceEq, areCalm⟩
  refine ⟨.of_calm calm, calm.store_eq, events, traceEq, ?_⟩
  intro e mem type wire isResend same
  have isCalm := areCalm e mem
  rw [same] at isCalm
  cases isCalm

/-- A change of members that no message is made from. -/
theorem mute_of_same (params_eq : second.params = first.params)
    (times_eq : second.clock.times = first.clock.times) (id_eq : second.id = first.id)
    (testReqId_eq : second.testReqId = first.testReqId) (store_eq : second.store = first.store)
    (trace_eq : second.trace = first.trace) : Mute first second :=
  ⟨sameTexts_of_same params_eq times_eq id_eq testReqId_eq, store_eq, [], by simp [trace_eq]⟩

theorem mute_doRead (session : Session) : Mute session session.doRead := by
  rw [doRead]
  split
  · exact .refl session
  split
  · exact ⟨sameTexts_of_same rfl rfl rfl rfl, rfl, [_], rfl, by simp⟩
  · exact mute_of_same rfl rfl rfl rfl rfl rfl

theorem mute_doWrite (session : Session) : Mute session session.doWrite := by
  rw [doWrite]
  split
  · exact mute_of_same rfl rfl rfl rfl rfl rfl
  split
  · exact .refl session
  split
  · exact ⟨sameTexts_of_same rfl rfl rfl rfl, rfl, [_], rfl, by simp⟩
  · exact mute_of_same rfl rfl rfl rfl rfl rfl

theorem mute_closeConnection (session : Session) : Mute session session.closeConnection := by
  rw [closeConnection]
  split
  · exact .refl session
  · exact mute_of_same rfl rfl rfl rfl rfl rfl

theorem mute_stop (session : Session) : Mute session session.stop := by
  have ended : ∀ running : Session, Mute running running.asStopped.cancelTimers := fun _ =>
    mute_of_same rfl rfl rfl rfl rfl rfl
  have dropped : ∀ released : Session, Mute released released.dropWrites := fun _ =>
    mute_of_same rfl rfl rfl rfl rfl rfl
  rw [stop]
  split
  · exact .refl session
  · refine Mute.trans ?_ (dropped _)
    split
    · exact mute_of_same rfl rfl rfl rfl rfl rfl
    · exact (ended session).trans (mute_closeConnection _)

theorem mute_onTransportDown (session : Session) : Mute session session.onTransportDown := by
  have released : ∀ closing : Session, Mute closing
      (closing.cancelTimers.disconnect.record .reconnectRequested) := fun _ =>
    ⟨sameTexts_of_same rfl rfl rfl rfl, rfl, [.reconnectRequested], rfl, by simp⟩
  rw [onTransportDown]
  split
  · exact .refl session
  split
  · exact .refl session
  · exact session.mute_closeConnection.trans (released _)

theorem mute_onWrite (session : Session) (result : Except IoError ℕ) :
    Mute session (session.onWrite result) := by
  have requeued : ∀ writeQ, Mute session { session with writeQ := writeQ } := fun _ =>
    mute_of_same rfl rfl rfl rfl rfl rfl
  simp only [onWrite]
  split
  · exact .refl session
  split
  · exact .refl session
  · exact session.mute_doWrite
  · exact session.mute_onTransportDown
  · split
    · exact ⟨sameTexts_of_same rfl rfl rfl rfl, rfl, [_], rfl, by simp⟩
    · exact (requeued _).trans (mute_doWrite _)

theorem mute_onRead_error (session : Session) (error : IoError) :
    Mute session (session.onRead (.error error)) := by
  simp only [onRead]
  split
  · exact .refl session
  cases error with
  | aborted => exact .refl session
  | transient => exact session.mute_doRead
  | down => exact session.mute_onTransportDown

theorem mute_expectResponse (session : Session) : Mute session session.expectResponse :=
  ⟨⟨rfl, rfl, rfl, rfl, rfl, rfl, fun _ => Nat.mod_lt _ (by decide)⟩, rfl, [],
    by simp [expectResponse]⟩

theorem mute_cleanUp (session : Session) :
    Mute session (session.record (.started .reconnect)).cleanUp :=
  ⟨⟨rfl, rfl, rfl, rfl, rfl, rfl, fun _ => show 0 < word64 by decide⟩, rfl,
    [.started .reconnect], rfl, by simp⟩

end Mute

section Send

variable {session : Session} {outgoing : Outgoing} {width : ℕ}

theorem sameTexts_sendMessage (session : Session) (type wire : Bytes) (isResend : Bool) :
    SameTexts session (session.sendMessage type wire isResend) := by
  have queued : SameTexts session { session with writeQ := session.writeQ ++ [⟨wire, 0⟩] } :=
    sameTexts_of_same rfl rfl rfl rfl
  have inflight : SameTexts session
      { session with writeQ := session.writeQ ++ [⟨wire, 0⟩], writeInflight := true } :=
    sameTexts_of_same rfl rfl rfl rfl
  have written : SameTexts session (session.sendBytes wire) := by
    simp only [sendBytes]
    split
    · exact queued
    · exact inflight.trans (mute_doWrite _).texts
  have stored : ∀ sending : Session, SameTexts sending (sending.storeOutbound wire) := by
    intro sending
    simp only [storeOutbound]
    split
    · exact sameTexts_of_same rfl rfl rfl rfl
    · exact sameTexts_of_same rfl rfl rfl rfl
  have recorded : ∀ sending : Session,
      SameTexts sending (sending.record (.sent type wire isResend)) := fun _ =>
    sameTexts_of_same rfl rfl rfl rfl
  simp only [sendMessage]
  split
  · exact .refl session
  · refine SameTexts.trans ?_ (Mute.of_calm (calm_scheduleIfEstablished _)).texts
    refine SameTexts.trans ?_ (recorded _)
    split
    · exact written
    · exact written.trans (stored _)

/-- The factory makes the next message from the same texts. -/
theorem built_texts (outgoing : Outgoing) (factory : MessageFactory) :
    (outgoing.built factory).2.params = factory.params ∧
      (outgoing.built factory).2.clock.times = factory.clock.times := by
  cases resent : outgoing.isResend with
  | false =>
      rw [outgoing.built_eq resent]
      simp [Clock.tick]
  | true =>
      cases outgoing with
      | gapFill msgSeqNum newSeqNo =>
          simp [Outgoing.built, MessageFactory.sequenceResetGapFill, Clock.tick]
      | stored index wire =>
          simp [Outgoing.built, MessageFactory.regenerateMessage, Clock.tick]
      | _ => cases resent

theorem sameTexts_send (session : Session) (outgoing : Outgoing) :
    SameTexts session (session.send outgoing) := by
  have texts := built_texts outgoing session.msgFactory
  have made : SameTexts session (session.withFactory (outgoing.built session.msgFactory).2) :=
    sameTexts_of_same texts.1 texts.2 rfl rfl
  exact made.trans (sameTexts_sendMessage _ _ _ _)

theorem storedSends_send (session : Session) (outgoing : Outgoing) :
    storedSends (session.send outgoing).trace = storedSends session.trace ++
      (if session.stopped || outgoing.isResend then []
        else [(outgoing.type, (outgoing.built session.msgFactory).1)]) := by
  rw [send, sendBuilt]
  generalize outgoing.built session.msgFactory = built
  cases running : session.stopped with
  | true =>
      rw [sendMessage, if_pos (show (session.withFactory built.2).stopped = true from running)]
      simp [withFactory]
  | false =>
      rcases trace_sendMessage (session.withFactory built.2) running outgoing.type built.1
        outgoing.isResend with ⟨written, traceEq, faults⟩
      have none : storedSends (written ++ (session.withFactory built.2).storeEvents built.1
          outgoing.isResend) = [] := by
        apply storedSends_none
        intro e mem type wire same
        subst same
        rcases List.mem_append.mp mem with fault | fault
        · cases faults _ fault
        · rw [storeEvents] at fault
          split at fault
          · simp at fault
          · cases List.mem_singleton.mp fault
      rw [traceEq, ← List.append_assoc written, storedSends_append, storedSends_append, none]
      cases outgoing.isResend <;> rfl

/-- The wires that were stored, in order. -/
def storedWires (trace : List Event) : List Bytes := (storedSends trace).map Prod.snd

/-- Messages that can be read once they are sent, with times of the given width. -/
def Sendable (width : ℕ) : Outgoing → Prop
  | .logon _ => True
  | .reject _ reason tag text => reason < 10 ^ 7 ∧ tag < 10 ^ 7 ∧ PlainText text
  | .logout reason => PlainText reason
  | .heartbeat testReqId => PlainText testReqId
  | .testRequest testReqId => PlainText testReqId ∧ testReqId ≠ []
  | .resendRequest _ _ => True
  | .custom payload => payload ≠ [] ∧ soh ∉ payload ∧ payload.length < 5 * 10 ^ 9
  | .app message msgType => Composable (msgType.take 8) message
  | .gapFill _ _ => True
  | .stored index wire => Stamped width wire ∧ ∃ off, index = createMessageIndex wire off

/-- All that was sent can be read, all that was stored can be sent again, and the store leads back
to it while its 32-bit offsets do. -/
structure Emitting (width : ℕ) (session : Session) : Prop where
  configured : session.Configured
  presentable : session.params.Presentable
  width_eq : ∀ n, (session.clock.times n).length = width
  narrow : width < word16
  emitted : ∀ sent ∈ sentMessages session.trace, Emittable sent.1 sent.2
  stamped : ∀ wire ∈ storedWires session.trace, Stamped width wire
  holding : (storedWires session.trace).flatten.length < word32 →
    session.store.Holding (storedWires session.trace)

theorem composable_of_outgoing (configured : session.Configured) (sendable : Sendable width outgoing)
    (fresh : outgoing.isResend = false) :
    Composable outgoing.type (outgoing.fields session.params) := by
  cases outgoing with
  | logon resetSeqNums => exact composable_logon configured resetSeqNums
  | reject refSeqNum reason tag text =>
      exact composable_reject _ refSeqNum sendable.1 sendable.2.1 sendable.2.2
  | logout reason =>
      exact @composable_text reason (ascii "5") 58 (by decide) (by norm_num) (by decide) sendable
  | heartbeat testReqId =>
      exact @composable_text testReqId (ascii "0") 112 (by decide) (by norm_num) (by decide) sendable
  | testRequest testReqId => exact composable_testRequest sendable.1 sendable.2
  | resendRequest beginSeqNo endSeqNo => exact composable_resendRequest _ _ _
  | custom payload => exact composable_custom sendable.1 sendable.2.1 sendable.2.2
  | app message msgType => exact sendable
  | gapFill => cases fresh
  | stored => cases fresh

theorem built_wireOf (emitting : session.Emitting width) (sendable : Sendable width outgoing)
    (fresh : outgoing.isResend = false) :
    (outgoing.built session.msgFactory).1 =
      wireOf fix44 (MessageFactory.headerFields session.params outgoing.type
        session.seqProvider.nextOut session.clock.nowFix ++ outgoing.fields session.params) := by
  have composable := composable_of_outgoing emitting.configured sendable fresh
  have built := session.msgFactory.build_wire outgoing.type (outgoing.fields session.params)
    (length_body_lt emitting.configured composable.storable)
  rw [outgoing.built_eq fresh, ← emitting.presentable.version]
  exact built

theorem stamped_built (emitting : session.Emitting width) (sendable : Sendable width outgoing)
    (fresh : outgoing.isResend = false) :
    Stamped width (outgoing.built session.msgFactory).1 := by
  have composable := composable_of_outgoing emitting.configured sendable fresh
  have short := composable.short
  have now : session.clock.nowFix.length = width := emitting.width_eq _
  refine ⟨session.params, outgoing.type, session.seqProvider.nextOut, session.clock.nowFix,
    outgoing.fields session.params, emitting.presentable, ?_, composable,
    session.clock.times_ne_nil _, now, built_wireOf emitting sendable fresh⟩
  refine ⟨emitting.configured.plain, emitting.configured.sender_lt, emitting.configured.target_lt,
    composable.noType, by omega, session.clock.soh_not_mem_times _, ?_, ?_, ?_⟩
  · rw [now]
    exact emitting.narrow
  · exact fun field mem => (composable.wellFormed field mem).soh_not_mem
  · intro field mem marked
    apply composable.others field mem
    simp only [List.mem_cons, List.not_mem_nil, or_false] at marked ⊢
    omega

theorem emittable_built (emitting : session.Emitting width) (sendable : Sendable width outgoing) :
    Emittable outgoing.type (outgoing.built session.msgFactory).1 := by
  cases resent : outgoing.isResend with
  | false =>
      have composable := composable_of_outgoing emitting.configured sendable resent
      rw [built_wireOf emitting sendable resent]
      exact emittable_wireOf emitting.presentable composable.type_ne_nil composable.noType
        (session.clock.times_ne_nil _) (session.clock.soh_not_mem_times _) composable.wellFormed
        composable.unstamped
  | true =>
      cases outgoing with
      | gapFill msgSeqNum newSeqNo =>
          refine @emittable_gapFill session.msgFactory emitting.presentable
            emitting.configured.sender_lt emitting.configured.target_lt ?_ msgSeqNum newSeqNo
          intro n
          rw [show (session.msgFactory.clock.times n).length = width from emitting.width_eq n]
          exact emitting.narrow
      | stored index wire =>
          rcases sendable with ⟨stamped, off, rfl⟩
          exact @emittable_regenerated _ _ session.msgFactory stamped emitting.presentable.version
            (emitting.width_eq _) off
      | _ => cases resent

theorem Emitting.texts {after : Session} (emitting : session.Emitting width)
    (texts : SameTexts session after) :
    after.Configured ∧ after.params.Presentable ∧ ∀ n, (after.clock.times n).length = width := by
  have presentable := emitting.presentable
  refine ⟨emitting.configured.texts texts, ⟨?_, (emitting.configured.texts texts).plain, ?_, ?_⟩, ?_⟩
  · rw [texts.version_eq]; exact presentable.version
  · rw [texts.sender_eq]; exact presentable.sender_ne_nil
  · rw [texts.target_eq]; exact presentable.target_ne_nil
  · rw [texts.times_eq]; exact emitting.width_eq

theorem Emitting.mute {after : Session} (emitting : session.Emitting width)
    (mute : Mute session after) : after.Emitting width := by
  rcases mute.trace_eq with ⟨events, traceEq, silent⟩
  rcases emitting.texts mute.texts with ⟨configured, presentable, width_eq⟩
  have sent : sentMessages after.trace = sentMessages session.trace := by
    have none : sentMessages events = [] := by
      rw [sentMessages, List.filterMap_eq_nil_iff]
      intro e mem
      have other := silent e mem
      split
      · next type wire isResend => exact absurd rfl (other type wire isResend)
      · rfl
    rw [traceEq, sentMessages_append, none, List.append_nil]
  have stored : storedWires after.trace = storedWires session.trace := by
    rw [storedWires, storedWires, traceEq, storedSends_append,
      storedSends_none fun e mem type wire => silent e mem type wire false, List.append_nil]
  refine ⟨configured, presentable, width_eq, emitting.narrow, ?_, ?_, ?_⟩
  · rw [sent]
    exact emitting.emitted
  · rw [stored]
    exact emitting.stamped
  · rw [stored, mute.store_eq]
    exact emitting.holding

/-- Sending keeps all that. -/
theorem emitting_send (emitting : session.Emitting width) (sendable : Sendable width outgoing) :
    (session.send outgoing).Emitting width := by
  rcases emitting.texts (sameTexts_send session outgoing) with ⟨configured, presentable, width_eq⟩
  have stored : storedWires (session.send outgoing).trace = storedWires session.trace ++
      (if session.stopped || outgoing.isResend then []
        else [(outgoing.built session.msgFactory).1]) := by
    rw [storedWires, storedSends_send, List.map_append, storedWires]
    split <;> rfl
  refine ⟨configured, presentable, width_eq, emitting.narrow, ?_, ?_, ?_⟩
  · intro sent mem
    rw [sentMessages_send, List.mem_append] at mem
    rcases mem with earlier | new
    · exact emitting.emitted sent earlier
    · split at new
      · simp at new
      · rw [List.mem_singleton.mp new]
        exact emittable_built emitting sendable
  · intro wire mem
    rw [stored, List.mem_append] at mem
    rcases mem with earlier | new
    · exact emitting.stamped wire earlier
    · split at new
      · simp at new
      · next fresh =>
          simp only [Bool.or_eq_true, not_or, Bool.not_eq_true] at fresh
          rw [List.mem_singleton.mp new]
          exact stamped_built emitting sendable fresh.2
  · rw [stored, store_send]
    split
    · rw [List.append_nil]
      exact emitting.holding
    · intro few
      rw [List.flatten_append, List.length_append] at few
      have fewer : (storedWires session.trace).flatten.length +
          (outgoing.built session.msgFactory).1.length < word32 := by simpa using few
      exact (emitting.holding (by omega)).storeOutboundMessage _ fewer

theorem Emitting.performs {after : Session} (emitting : session.Emitting width)
    (performs : Performs (Sendable width) session after) : after.Emitting width :=
  performs.invariant (fun _ _ calm emitting => emitting.mute (.of_calm calm))
    (fun _ _ sendable emitting => emitting_send emitting sendable)
    (fun stopping emitting => emitting.mute stopping.mute_stop) emitting

end Send

section Dispatch

variable {session : Session} {message : Message} {raw : Bytes} {width : ℕ}

/-- The condition on a call of `dispatch` under which the answer can be read. -/
structure Composed (session : Session) (message : Message) : Prop where
  small : ∀ field ∈ message, field.value.length < 10 ^ 9
  /-- An admitted message with an old number is marked as a possible duplicate. -/
  marked : session.stopped = false → ∀ type, session.Admitted message type →
    (makeValidMessageView message).headerCache.msgSeqNum < session.seqProvider.nextIn →
      (makeValidMessageView message).headerCache.possDupFlag = some (ascii "Y")
  /-- Messages are asked for again only while the store finds them. -/
  held : session.stopped = false → session.Admitted message (ascii "2") →
    (storedWires session.trace).flatten.length < word32

theorem plain_fixedReasons {reason : Bytes} (fixed : reason ∈ fixedReasons) : PlainText reason := by
  have all : ∀ reason ∈ fixedReasons, soh ∉ reason ∧ reason.length < 100 := by decide +kernel
  have short := (all reason fixed).2
  exact ⟨(all reason fixed).1, by omega⟩

/-- Whatever `dispatch` answers can be read. -/
theorem sendable_replies {outgoing : Outgoing} (emitting : session.Emitting width)
    (running : session.stopped = false) (composed : session.Composed message)
    (noDelimiter : ∀ field ∈ message, soh ∉ field.value)
    (reply : Replies session message raw outgoing) : Sendable width outgoing := by
  cases reply with
  | logon resetSeqNums => exact trivial
  | reject error found =>
      rcases session.validator.plainFindings_validateMessage (makeValidMessageView message)
        session.params error found with ⟨noInfo, shortInfo, smallTag⟩
      exact ⟨code_lt _, smallTag, noInfo, by omega⟩
  | logout reason fixed => exact plain_fixedReasons fixed
  | tooLow type admitted behind unmarked =>
      exact absurd (composed.marked running type admitted behind) unmarked
  | heartbeat testReqId found =>
      rcases mem_of_firstValue found with ⟨field, mem, rfl⟩
      exact ⟨noDelimiter field mem, composed.small field mem⟩
  | resendRequest type admitted ahead => exact trivial
  | custom => exact customPayload emitting.configured
  | gapFill msgSeqNum newSeqNo => exact trivial
  | stored admitted index mem resendable =>
      have few := composed.held running admitted
      rcases (emitting.holding few).getMessageWire few mem with ⟨wire, inStore, off, indexEq, wireEq⟩
      rw [wireEq]
      exact ⟨emitting.stamped wire inStore, off, indexEq⟩

theorem emitting_dispatch (raw : Bytes) (emitting : session.Emitting width)
    (composed : session.Composed message) (noDelimiter : ∀ field ∈ message, soh ∉ field.value) :
    (session.dispatch message raw).Emitting width := by
  cases running : session.stopped with
  | true =>
      rw [dispatch, if_pos running]
      exact emitting
  | false =>
      refine emitting.performs ((session.performs_dispatch message raw).mono ?_)
      intro outgoing reply
      exact sendable_replies emitting running composed noDelimiter reply

theorem emitting_stopWithLogout (emitting : session.Emitting width) {reason : Bytes}
    (fixed : reason ∈ fixedReasons) : (session.stopWithLogout reason).Emitting width :=
  emitting.performs (performs_stopWithLogout session (plain_fixedReasons fixed))

theorem emitting_drainOne (raw : Bytes) (emitting : session.Emitting width)
    (composed : session.Composed message) (noDelimiter : ∀ field ∈ message, soh ∉ field.value) :
    (session.drainOne message raw).Emitting width := by
  have dispatched := emitting_dispatch raw emitting composed noDelimiter
  simp only [drainOne]
  split
  · exact dispatched.mute (.of_calm (calm_withCache _ _))
  · exact dispatched.mute (.of_calm ((calm_recordFault _ _).trans (calm_withCache _ _)))

theorem emitting_processWireMessage {wire : Bytes} (emitting : session.Emitting width)
    (each : EachDispatch Composed session wire) :
    (session.processWireMessage wire).Emitting width := by
  apply processWireMessage_rule (Emitting width) (Emitting width) ?_ ?_ ?_ ?_ ?_ ?_ ?_ ?_ emitting
    each
  · intro _ emitting composed
    exact emitting_dispatch wire emitting composed fun field mem => soh_not_mem_of_parse mem
  · intro emitting
    exact emitting_stopWithLogout emitting (by simp [fixedReasons])
  · intro current emitting _
    exact emitting
  · intro current raw _ emitting composed
    exact emitting_drainOne raw emitting composed fun field mem => soh_not_mem_of_parse mem
  · intro current emitting
    exact emitting
  · intro current emitting
    exact emitting.mute (.of_calm (calm_withState _ _))
  · intro current emitting
    exact emitting.mute (.of_calm (calm_recordFault _ _))
  · intro current emitting
    have plain : PlainText (ascii "Parse error during recovery") :=
      plain_fixedReasons (by simp [fixedReasons])
    exact (emitting_send emitting (show Sendable width (.logout _) from plain)).mute (mute_stop _)

end Dispatch

section Runs

variable {session : Session} {width : ℕ}

/-- A Custom message with a payload. -/
def IsCustom (message : Message) (msgType : Bytes) : Prop :=
  msgType = MessageFactory.customType ∧ ∃ payload, message = [⟨9250, payload⟩] ∧ payload ≠ [] ∧
    soh ∉ payload ∧ payload.length < 5 * 10 ^ 9

/-- The condition on a step. -/
def StepComposed (session : Session) : Input → Prop
  | .frame wire => session.EachDispatch Composed wire
  | .sendFromApp message msgType => IsCustom message msgType
  | _ => True

theorem send_app (session : Session) (message : Message) (msgType : Bytes) :
    session.send (.app message msgType) =
      session.sendBuilt (msgType.take 8) (session.msgFactory.fromApp message msgType) false := rfl

theorem emitting_sendFromApp (emitting : session.Emitting width) {message : Message}
    {msgType : Bytes} (isCustom : IsCustom message msgType) :
    (session.sendFromApp message msgType).Emitting width := by
  rcases isCustom with ⟨rfl, payload, rfl, nonempty, noDelimiter, small⟩
  have whole : MessageFactory.customType.take 8 = MessageFactory.customType := by decide
  have sendable : Sendable width (.app [⟨9250, payload⟩] MessageFactory.customType) := by
    rw [Sendable, whole]
    exact composable_custom nonempty noDelimiter small
  rw [sendFromApp]
  split
  · exact emitting
  · rw [← send_app]
    exact emitting_send emitting sendable

theorem emitting_onInboundTimer (emitting : session.Emitting width) :
    session.onInboundTimer.Emitting width := by
  have plain := plain_testRequestText emitting.configured.testReqId_lt
  have sendable : Sendable width (.testRequest (testRequestText session.testReqId)) :=
    ⟨plain, testRequestText_ne_nil _⟩
  rw [onInboundTimer]
  split
  · exact emitting
  split
  · exact emitting_stopWithLogout emitting (by simp [fixedReasons])
  · exact (emitting_send (emitting.mute session.mute_expectResponse) sendable).mute
      (.of_calm (calm_scheduleTestRequestTimeout _))

theorem emitting_startNormal (emitting : session.Emitting width) :
    session.startNormal.Emitting width := by
  rw [startNormal]
  split
  · exact emitting
  have reading := (emitting.mute (.of_calm (session.calm_record (.started .normal)))).mute
    (mute_doRead _)
  simp only []
  cases session.role with
  | acceptor =>
      exact reading.mute (.of_calm ((calm_withState _ _).trans (calm_scheduleLogonTimeout _ _)))
  | initiator =>
      have numbered : (if (session.record (.started .normal)).doRead.params.initiatorResetOnLogon
          then (session.record (.started .normal)).doRead.resetSequence
            (session.record (.started .normal)).doRead.seqProvider.reset
          else (session.record (.started .normal)).doRead).Emitting width := by
        split
        · exact reading.mute (.of_calm (calm_resetSequence _ _))
        · exact reading
      exact (@emitting_send _ (.logon _) _ numbered trivial).mute
        (.of_calm ((calm_withState _ _).trans (calm_scheduleLogonTimeout _ _)))

theorem emitting_startAfterReconnect (emitting : session.Emitting width) :
    session.startAfterReconnect.Emitting width := by
  have cleaned := emitting.mute session.mute_cleanUp
  rw [startAfterReconnect]
  split
  · exact emitting
  split
  · exact emitting
  · apply Emitting.mute ?_ (mute_doRead _)
    cases session.role with
    | acceptor =>
        exact cleaned.mute (.of_calm ((calm_withState _ _).trans (calm_scheduleLogonTimeout _ _)))
    | initiator =>
        exact (@emitting_send _ (.logon false) _ cleaned trivial).mute
          (.of_calm ((calm_withState _ _).trans (calm_scheduleLogonTimeout _ _)))

theorem emitting_step {input : Input} (emitting : session.Emitting width)
    (composed : session.StepComposed input) : (session.step input).Emitting width := by
  cases input with
  | frame wire => exact emitting_processWireMessage emitting composed
  | sendFromApp message msgType => exact emitting_sendFromApp emitting composed
  | heartbeatTimer =>
      have empty : Sendable width (.heartbeat []) :=
        ⟨by simp, show ([] : Bytes).length < 10 ^ 9 by simp⟩
      simp only [step, onHeartbeatTimer]
      split
      · exact emitting
      · exact (emitting_send emitting empty).mute (.of_calm (calm_scheduleHeartbeat _))
  | inboundTimer => exact emitting_onInboundTimer emitting
  | logonTimer expected =>
      simp only [step, onLogonTimer]
      split
      · exact emitting
      split
      · exact emitting.mute session.mute_stop
      · exact emitting
  | logoutTimer =>
      simp only [step, onLogoutTimer]
      split
      · exact emitting
      · exact emitting.mute session.mute_stop
  | writeDone result => exact emitting.mute (session.mute_onWrite result)
  | readFailed error => exact emitting.mute (session.mute_onRead_error error)
  | setConnection conn => exact emitting.mute (mute_of_same rfl rfl rfl rfl rfl rfl)
  | start mode =>
      cases mode with
      | normal => exact emitting_startNormal emitting
      | reconnect => exact emitting_startAfterReconnect emitting
  | stop => exact emitting.mute session.mute_stop

theorem emitting_new {id : ℕ} {role : Role} {params : SessionParameters} {clock : Clock}
    (configured : (Session.new id role params clock).Configured) (presentable : params.Presentable)
    (narrow : (clock.times 0).length < word16) :
    (Session.new id role params clock).Emitting (clock.times 0).length := by
  refine ⟨configured, presentable, fun n => clock.length_times n 0, narrow, ?_, ?_, ?_⟩
  · simp [Session.new, sentMessages]
  · simp [Session.new, storedWires, storedSends]
  · intro _
    exact MessageStore.holding_new

/-- In every run of such steps, whatever is sent is read without error as one message of the
intended type, with each field of header and trailer once. -/
theorem run_sends_readable (id : ℕ) (role : Role) (params : SessionParameters) (clock : Clock)
    (inputs : List Input) (configured : (Session.new id role params clock).Configured)
    (presentable : params.Presentable) (narrow : (clock.times 0).length < word16)
    (composed : Runs.Meets step StepComposed (Session.new id role params clock) inputs) :
    ∀ sent ∈ sentMessages ((Session.new id role params clock).run inputs).trace,
      Emittable sent.1 sent.2 := by
  have emitting : ((Session.new id role params clock).run inputs).Emitting (clock.times 0).length :=
    composed.invariant (emitting_new configured presentable narrow)
      fun session input emitting here => emitting_step emitting here
  exact emitting.emitted

end Runs

section Example

/-- The peer asks for all messages again after a Custom message was sent. -/
def customResent : List Input :=
  answeredLogon ++ [.sendFromApp [⟨9250, ascii "x"⟩] MessageFactory.customType,
    .frame (peerWire (ascii "2") 2 [⟨7, ascii "1"⟩, ⟨16, ascii "0"⟩])]

theorem configured_initiator : initiator.Configured := by
  refine ⟨⟨by decide, by decide, by decide⟩, by decide, by decide, by decide +kernel, ?_, by decide,
    by decide⟩
  intro n
  exact show (Clock.standard.times n).length < 10 ^ 9 by simp [Clock.standard, ascii]

theorem composed_customResent : Runs.Meets step StepComposed initiator customResent := by
  refine ⟨trivial, trivial, ⟨fun _ => ⟨by decide +kernel, ?_, fun _ _ => by decide +kernel⟩, ?_⟩,
    ⟨rfl, ascii "x", rfl, by decide, by decide, by decide⟩,
    ⟨fun _ => ⟨by decide +kernel, ?_, fun _ _ => by decide +kernel⟩, ?_⟩, trivial⟩
  · intro _ type _ old
    exact absurd old (by decide +kernel)
  · intro recovering
    exact absurd recovering (by decide +kernel)
  · intro _ type _ old
    exact absurd old (by decide +kernel)
  · intro recovering
    exact absurd recovering (by decide +kernel)

theorem run_sends_readable_resent :
    (sentMessages (initiator.run customResent).trace).map Prod.fst =
        [ascii "A", ascii "cu", ascii "4", ascii "cu"] ∧
      ∀ sent ∈ sentMessages (initiator.run customResent).trace, Emittable sent.1 sent.2 := by
  refine ⟨by decide +kernel, ?_⟩
  exact run_sends_readable 0 .initiator _ .standard customResent configured_initiator
    ⟨by decide, configured_initiator.plain, by decide, by decide⟩ (by decide) composed_customResent

/-- A heartbeat with an old number is quoted in the Logout that refuses it, which is then read with
an error and with two MsgSeqNum fields. -/
theorem run_sends_unreadable :
    ∃ sent ∈ sentMessages (initiator.run (answeredLogon ++ [.frame (peerHeartbeat 1)])).trace,
      sent.1 = ascii "5" ∧ (Parser.parse sent.2).2 ≠ [] ∧
        (Parser.parse sent.2).1.countP (·.tag = 34) = 2 ∧ ¬Emittable sent.1 sent.2 := by
  have quoted : ∃ sent ∈ sentMessages (initiator.run (answeredLogon ++
      [.frame (peerHeartbeat 1)])).trace, sent.1 = ascii "5" ∧ (Parser.parse sent.2).2 ≠ [] ∧
        (Parser.parse sent.2).1.countP (·.tag = 34) = 2 := by
    decide +kernel
  rcases quoted with ⟨sent, mem, logout, errors, twice⟩
  exact ⟨sent, mem, logout, errors, twice, fun emittable => errors emittable.noErrors⟩

end Example

end Session

end FixEngine
