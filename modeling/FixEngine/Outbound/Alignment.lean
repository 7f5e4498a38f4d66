import FixEngine.Outbound.Index
import FixEngine.Session.Operations
import FixEngine.Session.Runs
import FixEngine.Validation.History

/-!
# The store and the sequence numbers

`ResendStream` and `MessageStore` take it that the message with number n is entry n of the index.
The number is counted in one object and the entries in another, and the entry is made from the
text of the message. `Sound` says that they agree; every operation of a session keeps it, as long
as the outbound number is not reset over a store that is not empty and no text with delimiters
is written into a message.
-/

namespace FixEngine

/-- The messages that were sent and stored, with the types they were built with, in order. -/
def storedSends (trace : List Event) : List (Bytes × Bytes) :=
  trace.filterMap fun event =>
    match event with
    | .sent type wire false => some (type, wire)
    | _ => none

/-- Events that neither store a message nor fail to. -/
def Event.isAside : Event → Bool
  | .sent _ _ isResend => isResend
  | .fault reason => reason ≠ .storeSequence
  | _ => true

@[simp]
theorem storedSends_append (front rest : List Event) :
    storedSends (front ++ rest) = storedSends front ++ storedSends rest := by
  simp [storedSends]

theorem storedSends_none {events : List Event}
    (others : ∀ e ∈ events, ∀ type wire, e ≠ .sent type wire false) : storedSends events = [] := by
  rw [storedSends, List.filterMap_eq_nil_iff]
  intro e mem
  have other := others e mem
  split
  · next type wire => exact absurd rfl (other type wire)
  · rfl

theorem storedSends_aside {events : List Event} (aside : ∀ e ∈ events, e.isAside = true) :
    storedSends events = [] := by
  apply storedSends_none
  intro e mem type wire same
  have := aside e mem
  rw [same] at this
  cases this

/-- The index entry of the message that was built with a number and a type. -/
structure EntryOf (number : ℕ) (type wire : Bytes) (index : MsgIndex) : Prop where
  seq_eq : index.seq = number
  type_eq : index.msgType = type.take 2
  index_eq : ∃ off, index = createMessageIndex wire off
  wire_eq : ∃ params time fields, wire = wireOf params.fixVersion
    (MessageFactory.headerFields params type number time ++ fields)

namespace Session

/-- Entry n of the store is the message that was sent with number n. -/
structure Aligned (session : Session) : Prop where
  nextOut_eq : session.seqProvider.nextOut = session.store.outboundIndex.length + 1
  length_eq : (storedSends session.trace).length = session.store.outboundIndex.length
  entry : ∀ i type wire, (storedSends session.trace)[i]? = some (type, wire) →
    ∃ index, session.store.outboundIndex[i]? = some index ∧ EntryOf (i + 1) type wire index

/-- The texts a session stamps into every message have no delimiters and are of a sane size. -/
structure Configured (session : Session) : Prop where
  plain : session.params.Plain
  sender_lt : session.params.senderCompId.length < 10 ^ 9
  target_lt : session.params.targetCompId.length < 10 ^ 9
  encrypt_lt : (toChars session.params.encryptMethod).length < 10 ^ 9
  time_lt : ∀ n, (session.clock.times n).length < 10 ^ 9
  id_lt : session.id < word64
  testReqId_lt : session.testReqId < word64

/-- The texts that are put into every message are the same. -/
structure SameTexts (before after : Session) : Prop where
  version_eq : after.params.fixVersion = before.params.fixVersion
  sender_eq : after.params.senderCompId = before.params.senderCompId
  target_eq : after.params.targetCompId = before.params.targetCompId
  encrypt_eq : after.params.encryptMethod = before.params.encryptMethod
  times_eq : after.clock.times = before.clock.times
  id_eq : after.id = before.id
  testReqId_lt : before.testReqId < word64 → after.testReqId < word64

/-- No assertion of the store has failed; while the session runs, its store is aligned and
`spare` numbers are left. -/
structure Sound (spare : ℕ) (session : Session) : Prop where
  configured : session.Configured
  faultless : .fault .storeSequence ∉ session.trace
  aligned : session.stopped = false → session.Aligned
  room : session.stopped = false → session.seqProvider.nextOut + spare < word32

/-- `after` has the store and the outbound number of `before`. -/
structure Aside (before after : Session) : Prop where
  running : after.stopped = false → before.stopped = false
  store_eq : after.store = before.store
  nextOut_eq : after.seqProvider.nextOut = before.seqProvider.nextOut
  configured : before.Configured → after.Configured
  trace_eq : ∃ events, after.trace = before.trace ++ events ∧ ∀ e ∈ events, e.isAside = true

section Texts

variable {first second third : Session}

theorem SameTexts.refl (session : Session) : SameTexts session session :=
  ⟨rfl, rfl, rfl, rfl, rfl, rfl, fun lt => lt⟩

theorem SameTexts.trans (left : SameTexts first second) (right : SameTexts second third) :
    SameTexts first third :=
  ⟨right.version_eq.trans left.version_eq, right.sender_eq.trans left.sender_eq,
    right.target_eq.trans left.target_eq, right.encrypt_eq.trans left.encrypt_eq,
    right.times_eq.trans left.times_eq, right.id_eq.trans left.id_eq,
    fun lt => right.testReqId_lt (left.testReqId_lt lt)⟩

theorem sameTexts_of_same (params_eq : second.params = first.params)
    (times_eq : second.clock.times = first.clock.times) (id_eq : second.id = first.id)
    (testReqId_eq : second.testReqId = first.testReqId) : SameTexts first second :=
  ⟨by rw [params_eq], by rw [params_eq], by rw [params_eq], by rw [params_eq], times_eq, id_eq,
    fun lt => testReqId_eq ▸ lt⟩

theorem SameTexts.of_calm (calm : Calm first second) : SameTexts first second :=
  ⟨calm.fixVersion_eq, calm.senderCompId_eq, calm.targetCompId_eq, calm.encryptMethod_eq,
    by rw [calm.clock_eq], calm.id_eq, fun lt => by rwa [calm.testReqId_eq]⟩

theorem Configured.texts (configured : first.Configured) (texts : SameTexts first second) :
    second.Configured := by
  refine ⟨⟨?_, ?_, ?_⟩, ?_, ?_, ?_, ?_, ?_, texts.testReqId_lt configured.testReqId_lt⟩
  · rw [texts.version_eq]; exact configured.plain.version
  · rw [texts.sender_eq]; exact configured.plain.sender
  · rw [texts.target_eq]; exact configured.plain.target
  · rw [texts.sender_eq]; exact configured.sender_lt
  · rw [texts.target_eq]; exact configured.target_lt
  · rw [texts.encrypt_eq]; exact configured.encrypt_lt
  · rw [texts.times_eq]; exact configured.time_lt
  · rw [texts.id_eq]; exact configured.id_lt

end Texts

namespace Aside

variable {first second third : Session}

theorem refl (session : Session) : Aside session session :=
  ⟨fun running => running, rfl, rfl, fun configured => configured, [], by simp⟩

theorem trans (left : Aside first second) (right : Aside second third) : Aside first third := by
  rcases left.trace_eq with ⟨events, eventsEq, aside⟩
  rcases right.trace_eq with ⟨more, moreEq, asideMore⟩
  refine ⟨fun running => left.running (right.running running),
    right.store_eq.trans left.store_eq, right.nextOut_eq.trans left.nextOut_eq,
    fun configured => right.configured (left.configured configured), events ++ more,
    by rw [moreEq, eventsEq, List.append_assoc], ?_⟩
  intro e mem
  rcases List.mem_append.mp mem with inFirst | inSecond
  · exact aside e inFirst
  · exact asideMore e inSecond

end Aside

section Sound

variable {session after : Session} {spare : ℕ}

theorem Sound.aside (sound : session.Sound spare) (aside : Aside session after) :
    after.Sound spare := by
  rcases aside.trace_eq with ⟨events, traceEq, areAside⟩
  have sends : storedSends after.trace = storedSends session.trace := by
    rw [traceEq, storedSends_append, storedSends_aside areAside, List.append_nil]
  refine ⟨aside.configured sound.configured, ?_, ?_, ?_⟩
  · intro mem
    rw [traceEq] at mem
    rcases List.mem_append.mp mem with earlier | new
    · exact sound.faultless earlier
    · have := areAside _ new
      simp [Event.isAside] at this
  · intro running
    have aligned := sound.aligned (aside.running running)
    refine ⟨?_, ?_, ?_⟩
    · rw [aside.nextOut_eq, aside.store_eq]
      exact aligned.nextOut_eq
    · rw [sends, aside.store_eq]
      exact aligned.length_eq
    · intro i type wire found
      rw [sends] at found
      rw [aside.store_eq]
      exact aligned.entry i type wire found
  · intro running
    rw [aside.nextOut_eq]
    exact sound.room (aside.running running)

theorem Sound.weaken (sound : session.Sound (spare + 1)) : session.Sound spare :=
  ⟨sound.configured, sound.faultless, sound.aligned, fun running => by
    have := sound.room running
    omega⟩

/-- A stopped session may count as it likes. -/
theorem sound_of_stopped (configured : session.Configured)
    (faultless : .fault .storeSequence ∉ session.trace) (stopped : session.stopped = true) :
    session.Sound spare :=
  ⟨configured, faultless, fun running => by simp [stopped] at running,
    fun running => by simp [stopped] at running⟩

end Sound

section Quiet

variable (session : Session)

theorem aside_record (event : Event) (isAside : event.isAside = true) :
    Aside session (session.record event) :=
  ⟨fun running => running, rfl, rfl,
    fun configured => configured.texts (sameTexts_of_same rfl rfl rfl rfl), [event], rfl,
    by simpa using isAside⟩

theorem aside_recordFault (fault : Fault) (other : fault ≠ .storeSequence := by decide) :
    Aside session (session.recordFault fault) :=
  session.aside_record _ (by simp [Event.isAside, other])

/-- A change of members that no message is made from. -/
theorem aside_of_same {session after : Session}
    (stopped_eq : after.stopped = session.stopped) (store_eq : after.store = session.store)
    (nextOut_eq : after.seqProvider.nextOut = session.seqProvider.nextOut)
    (params_eq : after.params = session.params) (times_eq : after.clock.times = session.clock.times)
    (id_eq : after.id = session.id) (testReqId_eq : after.testReqId = session.testReqId)
    (trace_eq : after.trace = session.trace) : Aside session after := by
  refine ⟨fun running => stopped_eq.symm.trans running, store_eq, nextOut_eq, ?_, [],
    by simpa using trace_eq, by simp⟩
  intro configured
  exact configured.texts (sameTexts_of_same params_eq times_eq id_eq testReqId_eq)

theorem aside_scheduleHeartbeat : Aside session session.scheduleHeartbeat :=
  aside_of_same rfl rfl rfl rfl rfl rfl rfl rfl

theorem aside_scheduleTestRequestTimeout : Aside session session.scheduleTestRequestTimeout :=
  aside_of_same rfl rfl rfl rfl rfl rfl rfl rfl

theorem aside_scheduleLogonTimeout (expected : SessionState) :
    Aside session (session.scheduleLogonTimeout expected) :=
  aside_of_same rfl rfl rfl rfl rfl rfl rfl rfl

theorem aside_scheduleLogoutTimeout : Aside session session.scheduleLogoutTimeout :=
  aside_of_same rfl rfl rfl rfl rfl rfl rfl rfl

theorem aside_withState (state : SessionState) : Aside session (session.withState state) :=
  aside_of_same rfl rfl rfl rfl rfl rfl rfl rfl

theorem aside_withCache (cache : RecoveryCache) : Aside session (session.withCache cache) :=
  aside_of_same rfl rfl rfl rfl rfl rfl rfl rfl

theorem aside_withValidator (validator : Validator) :
    Aside session (session.withValidator validator) :=
  aside_of_same rfl rfl rfl rfl rfl rfl rfl rfl

theorem aside_updateIn (seqNo : ℕ) : Aside session (session.updateIn seqNo) :=
  aside_of_same rfl rfl rfl rfl rfl rfl rfl rfl

theorem aside_withInterval (interval : ℕ) : Aside session (session.withInterval interval) :=
  ⟨fun running => running, rfl, rfl, fun configured =>
    configured.texts ⟨rfl, rfl, rfl, rfl, rfl, rfl, fun lt => lt⟩, [], by simp [withInterval],
    by simp⟩

theorem aside_cancelTimers : Aside session session.cancelTimers :=
  aside_of_same rfl rfl rfl rfl rfl rfl rfl rfl

theorem aside_dropWrites : Aside session session.dropWrites :=
  aside_of_same rfl rfl rfl rfl rfl rfl rfl rfl

theorem aside_asStopped : Aside session session.asStopped :=
  ⟨fun running => by simp [asStopped] at running, rfl, rfl, fun configured =>
    configured.texts (sameTexts_of_same rfl rfl rfl rfl), [], by simp [asStopped], by simp⟩

theorem aside_closeConnection : Aside session session.closeConnection := by
  rw [closeConnection]
  split
  · exact .refl session
  · exact aside_of_same rfl rfl rfl rfl rfl rfl rfl rfl

theorem aside_doRead : Aside session session.doRead := by
  rw [doRead]
  split
  · exact .refl session
  split
  · exact session.aside_recordFault _
  · exact aside_of_same rfl rfl rfl rfl rfl rfl rfl rfl

theorem aside_doWrite : Aside session session.doWrite := by
  rw [doWrite]
  split
  · exact aside_of_same rfl rfl rfl rfl rfl rfl rfl rfl
  split
  · exact .refl session
  split
  · exact session.aside_recordFault _
  · exact aside_of_same rfl rfl rfl rfl rfl rfl rfl rfl

theorem aside_sendBytes (data : Bytes) : Aside session (session.sendBytes data) := by
  have queued : Aside session { session with writeQ := session.writeQ ++ [⟨data, 0⟩] } :=
    aside_of_same rfl rfl rfl rfl rfl rfl rfl rfl
  have inflight : Aside session
      { session with writeQ := session.writeQ ++ [⟨data, 0⟩], writeInflight := true } :=
    aside_of_same rfl rfl rfl rfl rfl rfl rfl rfl
  simp only [sendBytes]
  split
  · exact queued
  · exact inflight.trans (aside_doWrite _)

theorem aside_stop : Aside session session.stop := by
  rw [stop]
  split
  · exact .refl session
  · refine Aside.trans ?_ (aside_dropWrites _)
    split
    · exact session.aside_asStopped
    · exact (session.aside_asStopped.trans (aside_cancelTimers _)).trans (aside_closeConnection _)

theorem aside_becomeActive : Aside session session.becomeActive := by
  have cancelled : Aside session session.cancelLogonTimer :=
    aside_of_same rfl rfl rfl rfl rfl rfl rfl rfl
  exact (((cancelled.trans (aside_withState _ .active)).trans (aside_record _ .logonAccepted rfl)
    ).trans (aside_scheduleHeartbeat _)).trans (aside_scheduleTestRequestTimeout _)

theorem aside_cacheMessage (seqNum : ℕ) (raw : Bytes) :
    Aside session (session.cacheMessage seqNum raw) := by
  simp only [cacheMessage]
  refine Aside.trans ?_ (aside_withCache _ _)
  split
  · exact .refl session
  · exact session.aside_recordFault _

theorem aside_onTransportDown : Aside session session.onTransportDown := by
  have disconnected : ∀ released : Session, Aside released released.disconnect := fun _ =>
    aside_of_same rfl rfl rfl rfl rfl rfl rfl rfl
  rw [onTransportDown]
  split
  · exact .refl session
  split
  · exact .refl session
  · exact ((session.aside_closeConnection.trans (aside_cancelTimers _)).trans
      (disconnected _)).trans (aside_record _ _ rfl)

end Quiet

section Sending

variable {session : Session} {spare : ℕ} {type : Bytes} {fields : List Field}

/-- The fields of a message that can be stored and found again. -/
structure Storable (type : Bytes) (fields : List Field) : Prop where
  noType : soh ∉ type
  short : type.length ≤ 8
  plain : PlainFields fields
  small : (fieldsText fields).length < 6 * 10 ^ 9

theorem length_body_lt (configured : session.Configured) (storable : Storable type fields) :
    (fieldsText (session.msgFactory.bodyOf type fields)).length < 10 ^ 10 := by
  have small := storable.small
  exact length_stamped_lt configured.sender_lt configured.target_lt storable.short
    (configured.time_lt _) (by omega)

theorem outboundIndex_storeOutboundMessage (store : MessageStore) (wire : Bytes) :
    ∃ off, (store.storeOutboundMessage wire).outboundIndex =
      store.outboundIndex ++ [createMessageIndex wire off] := by
  refine ⟨(store.reserve wire).blobBufferUsed, ?_⟩
  simp only [MessageStore.storeOutboundMessage, MessageStore.reserve]
  split <;> rfl

theorem aside_withFactory {factory : MessageFactory} (params_eq : factory.params = session.params)
    (nextOut_eq : factory.seqProvider.nextOut = session.seqProvider.nextOut)
    (times_eq : factory.clock.times = session.clock.times) :
    Aside session (session.withFactory factory) :=
  aside_of_same rfl rfl nextOut_eq params_eq times_eq rfl rfl rfl

/-- Storing a message whose entry is the next one. -/
theorem aligned_stored {stored : Session} {wire : Bytes} (aligned : session.Aligned)
    (nextOut_eq : stored.seqProvider.nextOut = session.seqProvider.nextOut + 1)
    (store_eq : stored.store = session.store.storeOutboundMessage wire)
    (sends_eq : storedSends stored.trace = storedSends session.trace ++ [(type, wire)])
    (entry : ∀ off, EntryOf session.seqProvider.nextOut type wire (createMessageIndex wire off)) :
    stored.Aligned := by
  rcases outboundIndex_storeOutboundMessage session.store wire with ⟨off, indexEq⟩
  refine ⟨?_, ?_, ?_⟩
  · rw [nextOut_eq, store_eq, indexEq, aligned.nextOut_eq]
    simp
  · rw [sends_eq, store_eq, indexEq]
    simp [aligned.length_eq]
  · intro i type' wire' found
    rw [sends_eq] at found
    rw [store_eq, indexEq]
    rcases Nat.lt_or_ge i (storedSends session.trace).length with earlier | last
    · rw [List.getElem?_append_left earlier] at found
      rcases aligned.entry i type' wire' found with ⟨index, indexFound, entryOf⟩
      refine ⟨index, ?_, entryOf⟩
      rw [List.getElem?_append_left (by rw [← aligned.length_eq]; exact earlier)]
      exact indexFound
    · rw [List.getElem?_append_right last] at found
      have here : i = (storedSends session.trace).length := by
        rcases Nat.eq_or_lt_of_le last with same | beyond
        · exact same.symm
        · rw [List.getElem?_eq_none (by simp; omega)] at found
          cases found
      subst here
      simp only [Nat.sub_self, List.getElem?_cons_zero, Option.some.injEq, Prod.mk.injEq] at found
      rcases found with ⟨rfl, rfl⟩
      refine ⟨createMessageIndex wire off, ?_, ?_⟩
      · rw [aligned.length_eq]
        simp
      · have next := entry off
        rwa [aligned.nextOut_eq, ← aligned.length_eq] at next

theorem trace_storeOutbound {wire : Bytes} (asserted : session.store.seqAssert wire = true) :
    (session.storeOutbound wire).trace = session.trace := by
  simp only [storeOutbound, asserted, if_true]

theorem configured_storeOutbound (configured : session.Configured) (wire : Bytes) :
    (session.storeOutbound wire).Configured := by
  simp only [storeOutbound]
  split
  · exact configured.texts (sameTexts_of_same rfl rfl rfl rfl)
  · exact configured.texts (sameTexts_of_same rfl rfl rfl rfl)

/-- Building a message and sending it keeps the store aligned and uses one number. -/
theorem sound_sendBuilt (sound : session.Sound (spare + 1)) (storable : Storable type fields) :
    (session.sendBuilt type (session.msgFactory.build type fields) false).Sound spare := by
  have configured : (session.withFactory (session.msgFactory.build type fields).2).Configured := by
    have params : (session.msgFactory.build type fields).2.params = session.params := by
      simp [msgFactory]
    have times : (session.msgFactory.build type fields).2.clock.times = session.clock.times := by
      simp [msgFactory, Clock.tick]
    exact sound.configured.texts (sameTexts_of_same params times rfl rfl)
  cases running : session.stopped with
  | true =>
      have unsent : session.sendBuilt type (session.msgFactory.build type fields) false =
          session.withFactory (session.msgFactory.build type fields).2 := by
        rw [sendBuilt, sendMessage, if_pos (show (session.withFactory _).stopped = true from running)]
      rw [unsent]
      exact sound_of_stopped configured sound.faultless running
  | false =>
      have aligned := sound.aligned running
      have room := sound.room running
      have small : session.seqProvider.nextOut < word32 := by omega
      have wireEq : (session.msgFactory.build type fields).1 =
          wireOf session.params.fixVersion (MessageFactory.headerFields session.params type
            session.seqProvider.nextOut session.clock.nowFix ++ fields) :=
        session.msgFactory.build_wire type fields (length_body_lt sound.configured storable)
      have entry : ∀ off, EntryOf session.seqProvider.nextOut type
          (session.msgFactory.build type fields).1
          (createMessageIndex (session.msgFactory.build type fields).1 off) := by
        intro off
        have stamped := index_stamped sound.configured.plain storable.noType
          (session.clock.soh_not_mem_times session.clock.calls) storable.plain small off
        rw [wireEq]
        exact ⟨stamped.1, stamped.2, ⟨off, rfl⟩, session.params, session.clock.nowFix, fields, rfl⟩
      rw [sendBuilt, sendMessage,
        if_neg (show ¬(session.withFactory _).stopped = true by simp [withFactory, running])]
      simp only [Bool.false_eq_true, if_false]
      generalize (session.msgFactory.build type fields).1 = wire at entry
      have queued := (session.withFactory (session.msgFactory.build type fields).2).aside_sendBytes
        wire
      have stampedNext : ((session.withFactory (session.msgFactory.build type fields).2).sendBytes
          wire).seqProvider.nextOut = session.seqProvider.nextOut + 1 := by
        rw [queued.nextOut_eq]
        simp only [withFactory, MessageFactory.seqProvider_build, msgFactory, SeqProvider.updateOut]
        apply Nat.mod_eq_of_lt
        simp only [word32, word64] at *
        omega
      have queuedConfigured := queued.configured configured
      rcases queued.trace_eq with ⟨events, traceEq, areAside⟩
      have queuedStore : ((session.withFactory (session.msgFactory.build type fields).2).sendBytes
          wire).store = session.store := queued.store_eq
      revert stampedNext queuedConfigured traceEq queuedStore
      generalize (session.withFactory (session.msgFactory.build type fields).2).sendBytes wire =
        sending
      intro stampedNext queuedConfigured traceEq queuedStore
      have traceEq' : sending.trace = session.trace ++ events := traceEq
      have asserted : sending.store.seqAssert wire = true := by
        simp only [MessageStore.seqAssert, queuedStore, (entry _).seq_eq, aligned.nextOut_eq,
          beq_self_eq_true]
      have recorded : ((sending.storeOutbound wire).record (.sent type wire false)).trace =
          session.trace ++ (events ++ [.sent type wire false]) := by
        simp only [record, trace_storeOutbound asserted, traceEq', List.append_assoc]
      have stored : ((sending.storeOutbound wire).record (.sent type wire false)).Sound spare := by
        refine ⟨?_, ?_, ?_, ?_⟩
        · exact (configured_storeOutbound queuedConfigured wire).texts
            (sameTexts_of_same rfl rfl rfl rfl)
        · intro mem
          rw [recorded] at mem
          simp only [List.mem_append, List.mem_singleton, reduceCtorEq, or_false] at mem
          rcases mem with earlier | new
          · exact sound.faultless earlier
          · have := areAside _ new
            simp [Event.isAside] at this
        · intro _
          refine aligned_stored aligned ?_ ?_ ?_ entry
          · rw [← stampedNext]
            simp only [record, seqProvider_storeOutbound]
          · rw [← queuedStore]
            simp only [record, store_storeOutbound]
          · rw [recorded]
            simp only [storedSends_append, storedSends_aside areAside, List.nil_append]
            rfl
        · intro _
          simp only [record, seqProvider_storeOutbound, stampedNext]
          omega
      split
      · exact stored.aside (aside_scheduleHeartbeat _)
      · exact stored

/-- A resend stores nothing and takes no number. -/
theorem sound_resend (sound : session.Sound spare) {built : Bytes × MessageFactory}
    (params_eq : built.2.params = session.params)
    (nextOut_eq : built.2.seqProvider.nextOut = session.seqProvider.nextOut)
    (times_eq : built.2.clock.times = session.clock.times) :
    (session.sendBuilt type built true).Sound spare := by
  have stamped := sound.aside (aside_withFactory params_eq nextOut_eq times_eq)
  rw [sendBuilt, sendMessage]
  split
  · exact stamped
  · have sent := (stamped.aside (aside_sendBytes _ built.1)).aside
      (aside_record _ (.sent type built.1 true) rfl)
    simp only [if_true]
    split
    · exact sent.aside (aside_scheduleHeartbeat _)
    · exact sent

end Sending

section Senders

variable {session : Session} {spare : ℕ} {text : Bytes}

/-- A text that can be put into a field. -/
structure PlainText (text : Bytes) : Prop where
  noDelimiter : soh ∉ text
  small : text.length < 10 ^ 9

/-- Fields a session can send under a type, and send again. -/
structure Composable (type : Bytes) (fields : List Field) : Prop where
  type_ne_nil : type ≠ []
  noType : soh ∉ type
  short : type.length ≤ 2
  wellFormed : ∀ field ∈ fields, field.WellFormed
  others : ∀ field ∈ fields, field.tag ∉ [8, 9, 10, 34, 35, 43, 49, 52, 56, 122]
  small : (fieldsText fields).length < 6 * 10 ^ 9

theorem Composable.storable {type : Bytes} {fields : List Field}
    (composable : Composable type fields) : Storable type fields := by
  have short := composable.short
  refine ⟨composable.noType, by omega, ⟨?_, ?_, ?_⟩, composable.small⟩
  · exact fun field mem => (composable.wellFormed field mem).soh_not_mem
  · intro field mem same
    exact composable.others field mem (by simp [same])
  · intro field mem same
    exact composable.others field mem (by simp [same])

theorem length_fieldsText_le {fields : List Field} {width : ℕ}
    (wellFormed : ∀ field ∈ fields, field.WellFormed)
    (narrow : ∀ field ∈ fields, field.value.length ≤ width) :
    (fieldsText fields).length ≤ fields.length * (width + 9) := by
  induction fields with
  | nil => simp
  | cons first rest ih =>
      have later := ih (fun field mem => wellFormed field (List.mem_cons_of_mem _ mem))
        fun field mem => narrow field (List.mem_cons_of_mem _ mem)
      have tagWidth := length_decimal_le (by decide : 0 < 7)
        (wellFormed first (List.mem_cons_self ..)).tag_lt
      have here := narrow first (List.mem_cons_self ..)
      rw [fieldsText_cons, List.length_append, length_fieldText, List.length_cons, Nat.add_mul]
      omega

/-- A field of an outgoing message whose value has at most `width` bytes. -/
structure Field.Sendable (field : Field) (width : ℕ) : Prop where
  wellFormed : field.WellFormed
  others : field.tag ∉ [8, 9, 10, 34, 35, 43, 49, 52, 56, 122]
  narrow : field.value.length ≤ width

theorem sendable_number {tag width : ℕ} {n : ℤ} (tag_lt : tag < 10 ^ 7)
    (others : tag ∉ [8, 9, 10, 34, 35, 43, 49, 52, 56, 122])
    (narrow : (toChars n).length ≤ width) : Field.Sendable ⟨tag, toChars n⟩ width :=
  ⟨MessageFactory.wellFormed_number tag_lt n, others, narrow⟩

theorem sendable_text {tag width : ℕ} (tag_lt : tag < 10 ^ 7)
    (others : tag ∉ [8, 9, 10, 34, 35, 43, 49, 52, 56, 122]) (nonempty : text ≠ [])
    (noDelimiter : soh ∉ text) (narrow : text.length ≤ width) :
    Field.Sendable ⟨tag, text⟩ width :=
  ⟨⟨tag_lt, nonempty, noDelimiter⟩, others, narrow⟩

theorem composable_of_sendable {type : Bytes} {fields : List Field} {width : ℕ}
    (type_ok : type ≠ [] ∧ soh ∉ type ∧ type.length ≤ 2)
    (sendable : ∀ field ∈ fields, Field.Sendable field width)
    (few : fields.length * (width + 9) < 6 * 10 ^ 9) : Composable type fields := by
  refine ⟨type_ok.1, type_ok.2.1, type_ok.2.2, fun field mem => (sendable field mem).wellFormed,
    fun field mem => (sendable field mem).others, Nat.lt_of_le_of_lt ?_ few⟩
  exact length_fieldsText_le (fun field mem => (sendable field mem).wellFormed)
    fun field mem => (sendable field mem).narrow

theorem composable_logon (configured : session.Configured) (resetSeqNums : Bool) :
    Composable (ascii "A") ((Outgoing.logon resetSeqNums).fields session.params) := by
  have encrypt := configured.encrypt_lt
  have interval := length_toChars_toInt32_le session.params.heartBeatInt
  have flag : ∀ reset : Bool, Field.Sendable ⟨141, ascii (if reset then "Y" else "N")⟩ 1 := by
    intro reset
    cases reset <;> exact ⟨⟨by decide, by decide, by decide⟩, by decide, by decide⟩
  have reset := flag resetSeqNums
  apply @composable_of_sendable _ _ (10 ^ 9) (by decide) ?_ (by simp [Outgoing.fields])
  intro field mem
  simp only [Outgoing.fields, List.mem_cons, List.not_mem_nil, or_false] at mem
  rcases mem with rfl | rfl | rfl
  · exact sendable_number (by norm_num) (by decide) (by omega)
  · exact ⟨reset.wellFormed, reset.others, reset.narrow.trans (by norm_num)⟩
  · exact sendable_number (by norm_num) (by decide) (by omega)

/-- An optional text field. -/
theorem composable_text {type : Bytes} {tag : ℕ}
    (type_ok : type ≠ [] ∧ soh ∉ type ∧ type.length ≤ 2) (tag_lt : tag < 10 ^ 7)
    (others : tag ∉ [8, 9, 10, 34, 35, 43, 49, 52, 56, 122]) (plain : PlainText text) :
    Composable type (if text = [] then [] else [⟨tag, text⟩]) := by
  have small := plain.small
  split
  · exact @composable_of_sendable _ _ 0 type_ok (by simp) (by simp)
  · next nonempty =>
      refine @composable_of_sendable _ _ (10 ^ 9) type_ok ?_ (by simp)
      intro field mem
      rw [List.mem_singleton.mp mem]
      exact sendable_text tag_lt others nonempty plain.noDelimiter (by omega)

theorem composable_testRequest (plain : PlainText text) (nonempty : text ≠ []) :
    Composable (ascii "1") [⟨112, text⟩] := by
  have composable := @composable_text text (ascii "1") 112 (by decide) (by norm_num) (by decide)
    plain
  rwa [if_neg nonempty] at composable

theorem composable_resendRequest (params : SessionParameters) (beginSeqNo endSeqNo : ℕ) :
    Composable (ascii "2") ((Outgoing.resendRequest beginSeqNo endSeqNo).fields params) := by
  have first := length_toChars_toInt64_le beginSeqNo
  have last := length_toChars_toInt64_le endSeqNo
  apply @composable_of_sendable _ _ 20 (by decide) ?_ (by simp [Outgoing.fields])
  intro field mem
  simp only [Outgoing.fields, List.mem_cons, List.not_mem_nil, or_false] at mem
  rcases mem with rfl | rfl
  · exact sendable_number (by norm_num) (by decide) first
  · exact sendable_number (by norm_num) (by decide) last

theorem composable_custom (nonempty : text ≠ []) (noDelimiter : soh ∉ text)
    (small : text.length < 5 * 10 ^ 9) : Composable MessageFactory.customType [⟨9250, text⟩] := by
  refine @composable_of_sendable _ _ (5 * 10 ^ 9) (by decide) ?_ (by simp)
  intro field mem
  rw [List.mem_singleton.mp mem]
  exact sendable_text (by norm_num) (by decide) nonempty noDelimiter (by omega)

theorem composable_reject (params : SessionParameters) (refSeqNum : ℕ) {reason tag : ℕ}
    (smallReason : reason < 10 ^ 7) (smallTag : tag < 10 ^ 7) (plain : PlainText text) :
    Composable (ascii "3") ((Outgoing.reject refSeqNum reason tag text).fields params) := by
  have number := length_toChars_toInt64_le refSeqNum
  have reasonWidth := length_decimal_le (by decide : 0 < 7) smallReason
  have tagWidth := length_decimal_le (by decide : 0 < 7) smallTag
  have small := plain.small
  refine @composable_of_sendable _ _ (10 ^ 9) (by decide) ?_ ?_
  · intro field mem
    simp only [Outgoing.fields, List.mem_append, List.mem_ite_nil_left, List.mem_ite_nil_right,
      List.mem_singleton] at mem
    rcases mem with ((rfl | ⟨-, rfl⟩) | rfl) | ⟨nonempty, rfl⟩
    · exact sendable_number (by norm_num) (by decide) (by omega)
    · exact sendable_number (by norm_num) (by decide) (by rw [toChars_natCast]; omega)
    · exact sendable_number (by norm_num) (by decide) (by rw [toChars_natCast]; omega)
    · exact sendable_text (by norm_num) (by decide) nonempty plain.noDelimiter (by omega)
  · simp only [Outgoing.fields, List.length_append]
    split_ifs <;> simp

theorem sound_sendLogon (sound : session.Sound (spare + 1)) (resetSeqNums : Bool) :
    (session.sendLogon resetSeqNums).Sound spare :=
  sound_sendBuilt sound (composable_logon sound.configured resetSeqNums).storable

theorem sound_sendLogout (sound : session.Sound (spare + 1)) (plain : PlainText text) :
    (session.sendLogout text).Sound spare :=
  sound_sendBuilt sound
    (composable_text (by decide) (by norm_num) (by decide) plain).storable

theorem sound_sendHeartbeat (sound : session.Sound (spare + 1)) (plain : PlainText text) :
    (session.sendHeartbeat text).Sound spare :=
  sound_sendBuilt sound
    (composable_text (by decide) (by norm_num) (by decide) plain).storable

theorem sound_sendTestRequest (sound : session.Sound (spare + 1)) (plain : PlainText text)
    (nonempty : text ≠ []) : (session.sendTestRequest text).Sound spare :=
  sound_sendBuilt sound (composable_testRequest plain nonempty).storable

theorem sound_sendResendRequest (sound : session.Sound (spare + 1)) (beginSeqNo endSeqNo : ℕ) :
    (session.sendResendRequest beginSeqNo endSeqNo).Sound spare :=
  sound_sendBuilt sound (composable_resendRequest session.params beginSeqNo endSeqNo).storable

theorem sound_sendCustom (sound : session.Sound (spare + 1)) (nonempty : text ≠ [])
    (noDelimiter : soh ∉ text) (small : text.length < 5 * 10 ^ 9) :
    (session.sendCustom text).Sound spare :=
  sound_sendBuilt sound (composable_custom nonempty noDelimiter small).storable

theorem sound_sendReject (sound : session.Sound (spare + 1)) (refSeqNum : ℕ) {reason tag : ℕ}
    (smallReason : reason < 10 ^ 7) (smallTag : tag < 10 ^ 7) (plain : PlainText text) :
    (session.sendReject refSeqNum reason tag text).Sound spare :=
  sound_sendBuilt sound
    (composable_reject session.params refSeqNum smallReason smallTag plain).storable

theorem sound_sendFromApp (sound : session.Sound (spare + 1)) {message : Message} {msgType : Bytes}
    (storable : Storable (msgType.take 8) message) :
    (session.sendFromApp message msgType).Sound spare := by
  rw [sendFromApp]
  split
  · exact sound.weaken
  · exact sound_sendBuilt sound storable

theorem sound_stopWithLogout (sound : session.Sound (spare + 1)) (plain : PlainText text) :
    (session.stopWithLogout text).Sound spare := by
  rw [stopWithLogout]
  split
  · exact sound.weaken
  · exact ((sound_sendLogout sound plain).aside (aside_withState _ _)).aside
      (aside_scheduleLogoutTimeout _)

theorem sound_sendSequenceResetGapFill (sound : session.Sound spare) (msgSeqNum newSeqNo : ℕ) :
    (session.sendSequenceResetGapFill msgSeqNum newSeqNo).Sound spare := by
  refine sound_resend sound ?_ ?_ ?_
  · simp [msgFactory]
  · simp [msgFactory]
  · simp [msgFactory, MessageFactory.sequenceResetGapFill, Clock.tick]

theorem sound_resendStored (sound : session.Sound spare) (seqNum : ℕ) :
    (session.resendStored seqNum).Sound spare := by
  rw [resendStored]
  split
  · exact sound.aside (session.aside_recordFault _)
  · refine sound_resend sound ?_ ?_ ?_
    · simp [msgFactory]
    · simp [msgFactory]
    · simp [msgFactory, MessageFactory.regenerateMessage, Clock.tick]

theorem sound_answerResend (rounds : ℕ) (stream : ResendStream) (sound : session.Sound spare) :
    (answerResend rounds stream session).Sound spare := by
  induction rounds generalizing stream session with
  | zero =>
      rw [answerResend]
      split
      · exact sound.aside (session.aside_recordFault _)
      · exact sound
  | succ rounds ih =>
      simp only [answerResend]
      split
      · apply ih
        have checked : (if stream.entry.isNone = true then session.recordFault .storeIndex
            else session).Sound spare := by
          split
          · exact sound.aside (session.aside_recordFault _)
          · exact sound
        split
        · exact sound_sendSequenceResetGapFill checked _ _
        · exact sound_resendStored checked _
      · exact sound

end Senders

end Session

end FixEngine
