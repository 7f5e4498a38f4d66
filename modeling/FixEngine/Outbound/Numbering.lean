import FixEngine.Outbound.Alignment
import FixEngine.Session.Delivery

/-!
# Every message is found under its number

The operations of `Outbound.Alignment`, put together to handlers, frames and runs. Two things
break the agreement of store and numbers, and the conditions here exclude them: a reset of the
numbers that leaves messages in the store, and a Logout that quotes the raw text of a message
with an old number, delimiters included.
-/

namespace FixEngine

section ParsedText

/-- Values end at the first delimiter. -/
theorem soh_not_mem_of_parseFields {rounds left : ℕ} {rest : Bytes} {field : Field}
    (mem : field ∈ (Parser.parseFields rounds left rest).1) : soh ∉ field.value := by
  induction rounds generalizing left rest with
  | zero => simp [Parser.parseFields] at mem
  | succ rounds ih =>
      simp only [Parser.parseFields] at mem
      split at mem
      · simp at mem
      split at mem
      · simp at mem
      split at mem
      · simp at mem
      split at mem
      · simp at mem
      split at mem
      · simp at mem
      next value next foundSoh =>
      split at mem
      · simp at mem
      · rcases List.mem_cons.mp mem with rfl | later
        · exact (cut_eq_some.mp foundSoh).2
        · exact ih later

theorem soh_not_mem_of_parse {wire : Bytes} {field : Field}
    (mem : field ∈ (Parser.parse wire).1) : soh ∉ field.value := by
  simp only [Parser.parse] at mem
  split at mem
  · simp at mem
  split at mem
  · simp at mem
  next checksum checksumRead =>
  split at mem
  · simp at mem
  split at mem
  · rcases List.mem_append.mp mem with earlier | last
    · exact soh_not_mem_of_parseFields earlier
    · rw [List.mem_singleton.mp last]
      exact not_mem_of_digits (whole_fromChars_eq_some.mp checksumRead).2.1 (by decide)
  · exact soh_not_mem_of_parseFields mem

theorem mem_of_firstValue {message : Message} {tag : ℕ} {value : Bytes}
    (found : message.firstValue? tag = some value) : ∃ field ∈ message, field.value = value := by
  rw [Message.firstValue?, Option.map_eq_some_iff] at found
  rcases found with ⟨field, foundField, valueEq⟩
  exact ⟨field, List.mem_of_find?_eq_some foundField, valueEq⟩

end ParsedText

namespace Session

/-- A Logon makes an acceptor reset its numbers. -/
def ResetsNumbers (session : Session) (message : Message) : Prop :=
  session.role = .acceptor ∧ session.params.acceptorResetOnLogon = true ∧
    message.firstValue? 141 = some (ascii "Y") ∧
    ∃ interval, message.firstValue? 108 = some interval ∧
      (session.validateHeartbeatInt interval).1 = true

section Handlers

variable {session : Session} {spare : ℕ} {view : ValidMessageView} {type raw : Bytes}

theorem resetsNumbers_congr (before after : Session) (role_eq : after.role = before.role)
    (params_eq : after.params = before.params) (message : Message) :
    after.ResetsNumbers message ↔ before.ResetsNumbers message := by
  simp only [ResetsNumbers, role_eq, params_eq, validateHeartbeatInt_congr role_eq params_eq]

/-- Starting over with an empty store. -/
theorem sound_resetSequence (sound : session.Sound spare) {provider : SeqProvider}
    (first : provider.nextOut = 1)
    (empty : session.stopped = false → session.store.outboundIndex = [])
    (room : spare + 1 < word32) : (session.resetSequence provider).Sound spare := by
  refine ⟨sound.configured.texts (sameTexts_of_same rfl rfl rfl rfl), ?_, ?_, ?_⟩
  · intro mem
    rcases List.mem_append.mp mem with earlier | new
    · exact sound.faultless earlier
    · simp at new
  · intro running
    have noEntries := empty running
    have noSends : storedSends session.trace = [] := by
      apply List.eq_nil_of_length_eq_zero
      rw [(sound.aligned running).length_eq, noEntries]
      rfl
    have sends : storedSends (session.resetSequence provider).trace = [] := by
      rw [show (session.resetSequence provider).trace = session.trace ++ [.seqReset] from rfl,
        storedSends_append, noSends]
      rfl
    refine ⟨?_, ?_, ?_⟩
    · rw [show (session.resetSequence provider).store = session.store from rfl, noEntries]
      exact first
    · rw [sends, show (session.resetSequence provider).store = session.store from rfl, noEntries]
      rfl
    · intro i type wire found
      simp [sends] at found
  · intro _
    rw [show (session.resetSequence provider).seqProvider = provider from rfl, first]
    omega

theorem sound_handleLogon (sound : session.Sound (spare + 1)) (room : spare + 2 < word32)
    (fresh : session.stopped = false → session.ResetsNumbers view.message →
      session.store.outboundIndex = []) : (session.handleLogon view).Sound spare := by
  have texts : PlainText (ascii "Invalid HeartBtInt value") ∧ PlainText resetNotAllowed :=
    ⟨⟨by decide, by decide⟩, ⟨by decide, by decide⟩⟩
  cases found : view.message.firstValue? 108 with
  | none =>
      simp only [handleLogon, found]
      exact sound.weaken.aside (session.aside_recordFault _)
  | some interval =>
      rcases session.validateHeartbeatInt_cases interval with refused | ⟨incoming, accepted⟩
      · simp only [handleLogon, found, refused]
        exact sound_stopWithLogout sound texts.1
      · have taken := sound.aside (session.aside_withInterval incoming)
        cases role : session.role with
        | initiator =>
            have roleEq : (session.withInterval incoming).role = .initiator := role
            simp only [handleLogon, found, accepted.2.2, roleEq]
            split_ifs
            · exact sound_stopWithLogout taken texts.2
            · exact taken.weaken.aside (aside_becomeActive _)
        | acceptor =>
            have roleEq : (session.withInterval incoming).role = .acceptor := role
            have received := taken.aside (aside_withState _ .logonReceived)
            simp only [handleLogon, found, accepted.2.2, roleEq]
            split_ifs with flagged allowed
            · have reset := @sound_resetSequence _ _ received
                (SeqProvider.acceptorReset ((session.withInterval incoming).withState
                  .logonReceived).seqProvider) rfl
                (fun running => fresh running ⟨role, allowed, flagged, interval, found,
                  by rw [accepted.2.2]⟩) (by omega)
              exact (sound_sendLogon reset true).aside (aside_becomeActive _)
            · exact sound_stopWithLogout received texts.2
            · exact (sound_sendLogon received false).aside (aside_becomeActive _)

theorem sound_handleLogout (sound : session.Sound (spare + 1)) :
    session.handleLogout.Sound spare := by
  have cancelled : Aside session session.cancelLogoutTimer :=
    aside_of_same rfl rfl rfl rfl rfl rfl rfl rfl
  rw [handleLogout]
  split
  · exact (sound.weaken.aside cancelled).aside (aside_stop _)
  · exact (sound_sendLogout sound ⟨by decide, by decide⟩).aside (aside_stop _)

theorem sound_handleTestRequest (sound : session.Sound (spare + 1))
    (plain : ∀ field ∈ view.message, PlainText field.value) :
    (session.handleTestRequest view).Sound spare := by
  rw [handleTestRequest]
  split
  · exact sound.weaken.aside (session.aside_recordFault _)
  · next testReqId found =>
      rcases mem_of_firstValue found with ⟨field, mem, rfl⟩
      exact sound_sendHeartbeat sound (plain field mem)

theorem sound_handleResendRequest (sound : session.Sound spare) :
    (session.handleResendRequest view).Sound spare := by
  rw [handleResendRequest]
  split
  · exact sound_answerResend _ _ sound
  · exact sound.aside (session.aside_recordFault _)
  · exact sound.aside (session.aside_recordFault _)

theorem sound_handleSequenceReset (sound : session.Sound (spare + 1)) :
    (session.handleSequenceReset view).Sound spare := by
  rw [handleSequenceReset]
  split
  · exact sound.weaken.aside (session.aside_recordFault _)
  · simp only
    split
    · exact sound_stopWithLogout sound ⟨by decide, by decide⟩
    · exact sound.weaken.aside (session.aside_updateIn _)

theorem sound_handleReject (sound : session.Sound spare) :
    (session.handleReject view).Sound spare := by
  rw [handleReject]
  split
  · exact sound.aside (session.aside_recordFault _)
  · exact sound

/-- The answer to a Custom message names the session. -/
theorem customPayload (configured : session.Configured) :
    let payload := ascii "custom_response from" ++ session.readableId
    payload ≠ [] ∧ soh ∉ payload ∧ payload.length < 5 * 10 ^ 9 := by
  intro payload
  have fixed : soh ∉ ascii "custom_response from" ∧ soh ∉ ascii "<->" ∧ soh ∉ ascii " [" ∧
      soh ∉ ascii "]" := by decide
  have widths : (ascii "custom_response from").length = 20 ∧ (ascii "<->").length = 3 ∧
      (ascii " [").length = 2 ∧ (ascii "]").length = 1 := by decide
  have idWidth : (decimal session.id).length ≤ 20 := by
    have := configured.id_lt
    exact length_decimal_le (by decide) (by simp only [word64] at this; omega)
  have sender := configured.sender_lt
  have target := configured.target_lt
  refine ⟨?_, ?_, ?_⟩
  · intro empty
    have length := congrArg List.length empty
    rw [List.length_append, widths.1, List.length_nil] at length
    omega
  · simp only [payload, readableId, List.mem_append, not_or]
    exact ⟨fixed.1, ⟨⟨⟨⟨configured.plain.sender, fixed.2.1⟩, configured.plain.target⟩,
      fixed.2.2.1⟩, soh_not_mem_decimal _⟩, fixed.2.2.2⟩
  · simp only [payload, readableId, List.length_append, widths.1, widths.2.1, widths.2.2.1,
      widths.2.2.2]
    omega

theorem sound_handleCustom (sound : session.Sound (spare + 1)) :
    (session.handleCustom view).Sound spare := by
  have payload := customPayload sound.configured
  rw [handleCustom]
  split
  · exact sound.weaken
  · exact sound_sendCustom sound payload.1 payload.2.1 payload.2.2

theorem sound_handle (sound : session.Sound (spare + 1)) (room : spare + 2 < word32)
    (plain : ∀ field ∈ view.message, PlainText field.value)
    (fresh : session.stopped = false → type = ascii "A" → session.ResetsNumbers view.message →
      session.store.outboundIndex = []) : (session.handle type view).Sound spare := by
  have called := sound.aside (session.aside_record
    (.handled type view.headerCache.msgSeqNum view.message) rfl)
  have heartbeat : ∀ called : Session, Aside called called.handleHeartbeat := fun _ =>
    aside_of_same rfl rfl rfl rfl rfl rfl rfl rfl
  rw [handle]
  by_cases logon : type = ascii "A"
  · rw [if_pos logon]
    refine sound_handleLogon called room ?_
    intro running resets
    exact fresh running logon ((session.resetsNumbers_congr (session.called type view) rfl rfl _).mp resets)
  rw [if_neg logon]
  split
  · exact sound_handleLogout called
  split
  · exact called.weaken.aside (heartbeat _)
  split
  · exact sound_handleTestRequest called plain
  split
  · exact sound_handleResendRequest called.weaken
  split
  · exact sound_handleReject called.weaken
  split
  · exact sound_handleSequenceReset called
  split
  · exact sound_handleCustom called
  · exact called.weaken

theorem sound_beginRecovery (sound : session.Sound (spare + 1)) (seqNum : ℕ) (raw : Bytes) :
    (session.beginRecovery seqNum raw).Sound spare := by
  have requested := sound_sendResendRequest sound session.seqProvider.nextIn (seqNum - 1)
  have recovering := (requested.aside (aside_withState _ .recoveringResend)).aside
    (aside_withCache _ ((session.sendResendRequest session.seqProvider.nextIn
      (seqNum - 1)).recoveryCache.start session.seqProvider.nextIn))
  simp only [beginRecovery]
  split
  · exact recovering
  · exact recovering.aside (aside_cacheMessage _ seqNum raw)

theorem sound_checkSequence (sound : session.Sound (spare + 1)) (room : spare + 2 < word32)
    (plain : ∀ field ∈ view.message, PlainText field.value)
    (marked : session.stopped = false →
      view.headerCache.msgSeqNum < session.seqProvider.nextIn →
        view.headerCache.possDupFlag = some (ascii "Y"))
    (fresh : session.stopped = false → type = ascii "A" →
      view.headerCache.msgSeqNum = session.seqProvider.nextIn →
        session.ResetsNumbers view.message → session.store.outboundIndex = []) :
    (session.checkSequence type view raw).Sound spare := by
  simp only [checkSequence]
  split
  · next turn =>
      apply sound_handle (sound.aside (session.aside_updateIn _)) room plain
      intro running logon resets
      exact fresh running logon turn
        ((session.resetsNumbers_congr (session.updateIn _) rfl rfl _).mp resets)
  next notTurn =>
  split
  · split
    · split
      · split
        · exact sound.weaken
        · exact sound.weaken.aside (session.aside_cacheMessage _ _)
      · exact sound_stopWithLogout sound ⟨by decide, by decide⟩
    · exact sound_beginRecovery sound _ _
  next notAhead =>
  split
  · exact sound.weaken
  · next unmarked =>
      cases running : session.stopped with
      | true =>
          rw [stopWithLogout, if_pos running]
          exact sound.weaken
      | false => exact absurd (marked running (by omega)) unmarked

end Handlers

section Dispatch

/-- The condition on a call of `dispatch` under which the store stays aligned. -/
structure Orderly (session : Session) (message : Message) : Prop where
  /-- The 32-bit numbers of the store are not used up. -/
  room : session.stopped = false → session.seqProvider.nextOut + 2 < word32
  small : ∀ field ∈ message, field.value.length < 10 ^ 9
  /-- An admitted message with an old number is marked as a possible duplicate. -/
  marked : session.stopped = false → ∀ type, session.Accepts message type →
    (isAppMessageType type = true → session.established = true) →
    (makeValidMessageView message).headerCache.msgSeqNum < session.seqProvider.nextIn →
      (makeValidMessageView message).headerCache.possDupFlag = some (ascii "Y")
  /-- A Logon resets the numbers only over an empty store. -/
  fresh : session.stopped = false → session.Accepts message (ascii "A") →
    (makeValidMessageView message).headerCache.msgSeqNum = session.seqProvider.nextIn →
      session.ResetsNumbers message → session.store.outboundIndex = []

variable {session : Session} {message : Message}

theorem Sound.reserve (sound : session.Sound 1)
    (room : session.stopped = false → session.seqProvider.nextOut + 2 < word32) :
    session.Sound 2 := ⟨sound.configured, sound.faultless, sound.aligned, room⟩

theorem code_lt (code : ValidatorError) : code.code < 10 ^ 7 := by
  cases code <;> decide

theorem sound_dispatch (raw : Bytes) (sound : session.Sound 1) (orderly : session.Orderly message)
    (noDelimiter : ∀ field ∈ message, soh ∉ field.value) :
    (session.dispatch message raw).Sound 1 := by
  have plain : ∀ field ∈ message, PlainText field.value := fun field mem =>
    ⟨noDelimiter field mem, orderly.small field mem⟩
  cases running : session.stopped with
  | true =>
      rw [dispatch, if_pos running]
      exact sound
  | false =>
      have findings := session.validator.plainFindings_validateMessage
        (makeValidMessageView message) session.params
      have reserved := sound.reserve orderly.room
      simp only [dispatch, running, Bool.false_eq_true, if_false]
      generalize validatorEq : session.validator.validateMessage (makeValidMessageView message)
        session.params = validator at findings
      have validated := reserved.aside (session.aside_withValidator validator)
      split
      · exact sound_stopWithLogout validated ⟨by decide, by decide⟩
      next notFatal =>
      split
      · next error rest errorsEq =>
          rcases findings error (by rw [errorsEq]; exact List.mem_cons_self ..) with
            ⟨noInfo, shortInfo, smallTag⟩
          exact sound_sendReject validated _ (code_lt _) smallTag ⟨noInfo, by omega⟩
      next noErrors =>
      split
      · next type typeEq numbered =>
          have accepts : session.Accepts message type := by
            refine ⟨?_, ?_, typeEq, numbered⟩
            · rw [results, validatorEq]
              exact notFatal
            · rw [results, validatorEq]
              exact noErrors
          have timed : ∀ timed : Session, (timed = session.withValidator validator ∨
              timed = (session.withValidator validator).scheduleTestRequestTimeout) →
              (isAppMessageType type = true → session.established = true) →
              (timed.checkSequence type (makeValidMessageView message) raw).Sound 1 := by
            intro timed eitherWay admitted
            have timedSound : timed.Sound 2 := by
              rcases eitherWay with rfl | rfl
              · exact validated
              · exact validated.aside (aside_scheduleTestRequestTimeout _)
            apply sound_checkSequence timedSound (by decide) plain
            · intro _ behind
              apply orderly.marked running type accepts admitted
              rcases eitherWay with rfl | rfl
              · exact behind
              · exact behind
            · intro _ logon turn resets
              subst logon
              rcases eitherWay with rfl | rfl
              · exact orderly.fresh running accepts turn
                  ((session.resetsNumbers_congr (session.withValidator validator) rfl rfl _).mp
                    resets)
              · exact orderly.fresh running accepts turn
                  ((session.resetsNumbers_congr
                    (session.withValidator validator).scheduleTestRequestTimeout rfl rfl _).mp resets)
          have establishedEq : (session.withValidator validator).established =
              session.established := rfl
          have establishedTimed : (session.withValidator validator
              ).scheduleTestRequestTimeout.established = session.established := rfl
          simp only [dispatchValid, establishedEq]
          by_cases live : session.established = true
          · simp only [live, if_true, establishedTimed, Bool.not_true, Bool.false_and,
              Bool.false_eq_true, if_false]
            exact timed _ (.inr rfl) fun _ => live
          · simp only [live, Bool.false_eq_true, if_false, establishedEq, Bool.not_false,
              Bool.true_and]
            split
            · exact sound_stopWithLogout validated ⟨by decide, by decide⟩
            · next admin => exact timed _ (.inl rfl) fun app => absurd app admin
      · exact validated.weaken

theorem sound_drainOne (raw : Bytes) (sound : session.Sound 1) (orderly : session.Orderly message)
    (noDelimiter : ∀ field ∈ message, soh ∉ field.value) :
    (session.drainOne message raw).Sound 1 := by
  have dispatched := sound_dispatch raw sound orderly noDelimiter
  simp only [drainOne]
  split
  · exact dispatched.aside (aside_withCache _ _)
  · exact (dispatched.aside (aside_recordFault _ _)).aside (aside_withCache _ _)

theorem sound_processWireMessage {wire : Bytes} (sound : session.Sound 1)
    (room : session.stopped = false → session.seqProvider.nextOut + 2 < word32)
    (each : EachDispatch Orderly session wire) : (session.processWireMessage wire).Sound 1 := by
  apply processWireMessage_rule (Sound 1) (Sound 1) ?_ ?_ ?_ ?_ ?_ ?_ ?_ ?_ sound each
  · intro _ sound orderly
    exact sound_dispatch wire sound orderly fun field mem => soh_not_mem_of_parse mem
  · intro sound
    exact sound_stopWithLogout (sound.reserve room) ⟨by decide, by decide⟩
  · intro current sound _
    exact sound
  · intro current raw _ sound orderly
    exact sound_drainOne raw sound orderly fun field mem => soh_not_mem_of_parse mem
  · intro current sound
    exact sound
  · intro current sound
    exact sound.aside (aside_withState _ _)
  · intro current sound
    exact sound.aside (aside_recordFault _ _)
  · intro current sound
    have text : PlainText (ascii "Parse error during recovery") := ⟨by decide, by decide⟩
    have stopped := (sound_sendLogout sound text).aside (aside_stop _)
    exact sound_of_stopped stopped.configured stopped.faultless (stopped_stop _)

end Dispatch

section Runs

variable {session : Session}

/-- The condition on a step. -/
def StepOrderly (session : Session) (input : Input) : Prop :=
  (session.stopped = false → session.seqProvider.nextOut + 2 < word32) ∧
    match input with
    | .frame wire => session.EachDispatch Orderly wire
    | .sendFromApp message msgType => Storable (msgType.take 8) message
    | .start .normal => session.stopped = false → session.role = .initiator →
        session.params.initiatorResetOnLogon = true → session.store.outboundIndex = []
    | _ => True

theorem sound_onWrite (sound : session.Sound 1) (result : Except IoError ℕ) :
    (session.onWrite result).Sound 1 := by
  have requeued : ∀ writeQ, Aside session { session with writeQ := writeQ } := fun _ =>
    aside_of_same rfl rfl rfl rfl rfl rfl rfl rfl
  simp only [onWrite]
  split
  · exact sound
  split
  · exact sound
  · exact sound.aside session.aside_doWrite
  · exact sound.aside session.aside_onTransportDown
  · split
    · exact sound.aside (session.aside_recordFault _)
    · exact (sound.aside (requeued _)).aside (aside_doWrite _)

theorem plain_testRequestText {testReqId : ℕ} (lt : testReqId < word64) :
    PlainText (testRequestText testReqId) := by
  have width : (decimal testReqId).length ≤ 20 :=
    length_decimal_le (by decide) (by simp only [word64] at lt; omega)
  have fixed : soh ∉ ascii "TESTREQ_" ∧ (ascii "TESTREQ_").length = 8 := by decide
  refine ⟨?_, ?_⟩
  · simp only [testRequestText, List.mem_append, not_or]
    exact ⟨fixed.1, soh_not_mem_decimal _⟩
  · simp only [testRequestText, List.length_append, fixed.2]
    omega

theorem testRequestText_ne_nil (testReqId : ℕ) : testRequestText testReqId ≠ [] := by
  simp [testRequestText, ascii]

theorem sound_onInboundTimer (sound : session.Sound 2) : session.onInboundTimer.Sound 1 := by
  have expecting : Aside session session.expectResponse := by
    refine ⟨fun running => running, rfl, rfl, ?_, [], by simp [expectResponse], by simp⟩
    intro configured
    exact configured.texts ⟨rfl, rfl, rfl, rfl, rfl, rfl, fun _ => Nat.mod_lt _ (by decide)⟩
  have plain := plain_testRequestText sound.configured.testReqId_lt
  rw [onInboundTimer]
  split
  · exact sound.weaken
  split
  · exact sound_stopWithLogout sound ⟨by decide, by decide⟩
  · exact (sound_sendTestRequest (sound.aside expecting) plain (testRequestText_ne_nil _)).aside
      (aside_scheduleTestRequestTimeout _)

theorem sound_startNormal (sound : session.Sound 2)
    (fresh : session.stopped = false → session.role = .initiator →
      session.params.initiatorResetOnLogon = true → session.store.outboundIndex = []) :
    session.startNormal.Sound 1 := by
  rw [startNormal]
  split
  · exact sound.weaken
  have reading := (session.aside_record (.started .normal) rfl).trans (aside_doRead _)
  have kept := keeps_doRead (session.record (.started .normal))
  have soundReading := sound.aside reading
  cases role : session.role with
  | acceptor =>
      exact (soundReading.weaken.aside (aside_withState _ _)).aside (aside_scheduleLogonTimeout _ _)
  | initiator =>
      have paramsEq : (session.record (.started .normal)).doRead.params = session.params :=
        kept.params_eq
      simp only
      refine ((sound_sendLogon ?_ _).aside (aside_withState _ _)).aside
        (aside_scheduleLogonTimeout _ _)
      split
      · next configured =>
          apply sound_resetSequence soundReading rfl ?_ (by decide)
          intro running
          rw [reading.store_eq]
          exact fresh (reading.running running) role (by rw [← paramsEq]; exact configured)
      · exact soundReading

theorem sound_startAfterReconnect (sound : session.Sound 2) :
    session.startAfterReconnect.Sound 1 := by
  have cleaned : Aside session (session.record (.started .reconnect)).cleanUp := by
    refine ⟨fun running => running, rfl, rfl, ?_, [.started .reconnect], rfl, by decide⟩
    intro configured
    exact configured.texts ⟨rfl, rfl, rfl, rfl, rfl, rfl, fun _ => show 0 < word64 by decide⟩
  have soundCleaned := sound.aside cleaned
  rw [startAfterReconnect]
  split
  · exact sound.weaken
  split
  · exact sound.weaken
  · apply Sound.aside ?_ (aside_doRead _)
    cases session.role with
    | acceptor =>
        exact (soundCleaned.weaken.aside (aside_withState _ _)).aside
          (aside_scheduleLogonTimeout _ _)
    | initiator =>
        exact ((sound_sendLogon soundCleaned false).aside (aside_withState _ _)).aside
          (aside_scheduleLogonTimeout _ _)

theorem sound_step {input : Input} (sound : session.Sound 1)
    (orderly : session.StepOrderly input) : (session.step input).Sound 1 := by
  rcases orderly with ⟨room, orderly⟩
  have reserved := sound.reserve room
  cases input with
  | frame wire => exact sound_processWireMessage sound room orderly
  | sendFromApp message msgType => exact sound_sendFromApp reserved orderly
  | heartbeatTimer =>
      simp only [step, onHeartbeatTimer]
      split
      · exact sound
      · exact (sound_sendHeartbeat reserved ⟨by simp, by simp⟩).aside (aside_scheduleHeartbeat _)
  | inboundTimer => exact sound_onInboundTimer reserved
  | logonTimer expected =>
      simp only [step, onLogonTimer]
      split
      · exact sound
      split
      · exact sound.aside session.aside_stop
      · exact sound
  | logoutTimer =>
      simp only [step, onLogoutTimer]
      split
      · exact sound
      · exact sound.aside session.aside_stop
  | writeDone result => exact sound_onWrite sound result
  | readFailed error =>
      simp only [step, onRead]
      split
      · exact sound
      cases error with
      | aborted => exact sound
      | transient => exact sound.aside session.aside_doRead
      | down => exact sound.aside session.aside_onTransportDown
  | setConnection conn => exact sound.aside (aside_of_same rfl rfl rfl rfl rfl rfl rfl rfl)
  | start mode =>
      cases mode with
      | normal => exact sound_startNormal reserved orderly
      | reconnect => exact sound_startAfterReconnect reserved
  | stop => exact sound.aside session.aside_stop

theorem sound_new {id : ℕ} {role : Role} {params : SessionParameters} {clock : Clock}
    (configured : (Session.new id role params clock).Configured) :
    (Session.new id role params clock).Sound 1 := by
  refine ⟨configured, by simp [Session.new], ?_, ?_⟩
  · intro _
    refine ⟨rfl, rfl, ?_⟩
    intro i type wire found
    simp [Session.new, storedSends] at found
  · intro _
    exact show 1 + 1 < word32 by decide

/-- In every run of orderly steps the assertion of the store holds, and while the session is not
stopped the message under number n is the one that was sent with number n. -/
theorem run_store_aligned (id : ℕ) (role : Role) (params : SessionParameters) (clock : Clock)
    (inputs : List Input) (configured : (Session.new id role params clock).Configured)
    (orderly : Runs.Meets step StepOrderly (Session.new id role params clock) inputs) :
    let after := (Session.new id role params clock).run inputs
    .fault .storeSequence ∉ after.trace ∧
      (after.stopped = false →
        after.seqProvider.nextOut - 1 = after.store.outboundIndex.length ∧
        (storedSends after.trace).length = after.store.outboundIndex.length ∧
        ∀ n type wire, 1 ≤ n → (storedSends after.trace)[n - 1]? = some (type, wire) →
          ∃ index, after.store.getMessageIndex n = some index ∧ EntryOf n type wire index) := by
  intro after
  have sound : after.Sound 1 := orderly.invariant (sound_new configured)
    fun session input sound here => sound_step sound here
  refine ⟨sound.faultless, ?_⟩
  intro running
  have aligned := sound.aligned running
  refine ⟨?_, aligned.length_eq, ?_⟩
  · rw [aligned.nextOut_eq]
    rfl
  · intro n type wire positive found
    rcases aligned.entry (n - 1) type wire found with ⟨index, indexFound, entryOf⟩
    refine ⟨index, ?_, ?_⟩
    · rw [MessageStore.getMessageIndex, if_neg (by omega)]
      exact indexFound
    · rwa [Nat.sub_add_cancel positive] at entryOf

end Runs

section Example

/-- An acceptor that allows a reset of the numbers is connected and gets a Logon. -/
def resettable : Session := Session.new 0 .acceptor { leftParams with acceptorResetOnLogon := true }
  .standard

/-- The acceptor gets the Logon of its peer. -/
def logonRun : List Input :=
  [.setConnection 0, .start .normal, .frame ((peerFactory 1).logon 30 false).1]

theorem configured_resettable : resettable.Configured := by
  refine ⟨⟨by decide, by decide, by decide⟩, by decide, by decide, by decide +kernel, ?_, by decide,
    by decide⟩
  intro n
  exact show (Clock.standard.times n).length < 10 ^ 9 by simp [Clock.standard, ascii]

/-- The Logon resets the numbers over the empty store. Then the application sends a message, a
Heartbeat is due, and the peer asks for another one. -/
def busyRun : List Input :=
  [.setConnection 0, .start .normal, .frame ((peerFactory 1).logon 30 true).1,
    .sendFromApp [⟨58, ascii "x"⟩] (ascii "D"), .heartbeatTimer,
    .frame ((peerFactory 2).testRequest (ascii "T")).1]

theorem orderly_busyRun : Runs.Meets step StepOrderly resettable busyRun := by
  refine ⟨⟨by decide +kernel, trivial⟩, ⟨by decide +kernel, fun _ role => ?_⟩,
    ⟨by decide +kernel, ⟨fun _ => ⟨by decide +kernel, by decide +kernel, ?_, ?_⟩, ?_⟩⟩,
    ⟨by decide +kernel, ⟨by decide, by decide, ⟨by decide, by decide, by decide⟩, by decide⟩⟩,
    ⟨by decide +kernel, trivial⟩,
    ⟨by decide +kernel, ⟨fun _ => ⟨by decide +kernel, by decide +kernel, ?_, ?_⟩, ?_⟩⟩, trivial⟩
  · exact absurd role (by decide +kernel)
  · intro _ type _ _ old
    exact absurd old (by decide +kernel)
  · intro _ _ _ _
    exact List.eq_nil_of_length_eq_zero (by decide +kernel)
  · intro recovering
    exact absurd recovering (by decide +kernel)
  · intro _ type _ _ old
    exact absurd old (by decide +kernel)
  · intro _ _ _ resets
    exact absurd resets.2.2.1 (by decide +kernel)
  · intro recovering
    exact absurd recovering (by decide +kernel)

/-- A message that was sent under a number has an entry. -/
theorem exists_entry {after : Session} {n : ℕ} {type : Bytes}
    (entries : ∀ n type wire, 1 ≤ n → (storedSends after.trace)[n - 1]? = some (type, wire) →
      ∃ index, after.store.getMessageIndex n = some index ∧ EntryOf n type wire index)
    (positive : 1 ≤ n) (sent : ((storedSends after.trace)[n - 1]?).map Prod.fst = some type) :
    ∃ wire index, (storedSends after.trace)[n - 1]? = some (type, wire) ∧
      after.store.getMessageIndex n = some index ∧ EntryOf n type wire index := by
  rcases Option.map_eq_some_iff.mp sent with ⟨⟨sameType, wire⟩, found, typeEq⟩
  cases typeEq
  rcases entries n _ wire positive found with ⟨index, indexFound, entryOf⟩
  exact ⟨wire, index, found, indexFound, entryOf⟩

/-- The Logon, the message of the application, and the two Heartbeats are stored under their
numbers. -/
theorem run_store_aligned_busy :
    ∃ after, after = resettable.run busyRun ∧ .fault .storeSequence ∉ after.trace ∧
      after.seqProvider.nextOut - 1 = after.store.outboundIndex.length ∧
      after.store.outboundIndex.length = 4 ∧
      ∃ wire index, (storedSends after.trace)[1]? = some (ascii "D", wire) ∧
        after.store.getMessageIndex 2 = some index ∧ EntryOf 2 (ascii "D") wire index := by
  rcases run_store_aligned 0 .acceptor _ .standard busyRun configured_resettable orderly_busyRun with
    ⟨faultless, aligned⟩
  rcases aligned (by decide +kernel) with ⟨numbers, -, entries⟩
  refine ⟨(Session.new 0 .acceptor _ .standard).run busyRun, ?_, faultless, numbers,
    by decide +kernel, ?_⟩
  · rw [resettable]
  · have found := @exists_entry _ 2 (ascii "D") entries (by decide) (by decide +kernel)
    exact found

/-- A second Logon, which resets the numbers, is stored under number 2 with the number 1; and a
Logout that quotes a heartbeat with an old number is stored as a heartbeat. -/
theorem run_store_misaligned :
    (let after := resettable.run (logonRun ++ [.frame ((peerFactory 2).logon 30 true).1]);
      after.stopped = false ∧ after.state = .active ∧ after.seqProvider.nextOut = 2 ∧
        after.store.outboundIndex.length = 2 ∧
        (after.store.getMessageIndex 2).map MsgIndex.seq = some 1 ∧
        .fault .storeSequence ∈ after.trace) ∧
      (let after := resettable.run (logonRun ++ [.frame ((peerFactory 1).heartBeat []).1]);
      after.stopped = false ∧ (storedSends after.trace).map Prod.fst = [ascii "A", ascii "5"] ∧
        (after.store.getMessageIndex 2).map MsgIndex.msgType = some (ascii "0") ∧
        (after.store.getMessageIndex 2).map MsgIndex.seq = some 1) := by
  decide +kernel

end Example

end Session

end FixEngine
