import FixEngine.Network.Letters
import FixEngine.Outbound.Emission
import FixEngine.Outbound.Partition

/-!
# What a ResendRequest is answered with

A session keeps what it has sent: its history is, number by number, an administrative message or the
payload of a Custom message. The answer to a request for a range is one gap fill for each run of
administrative messages, and each Custom message again, marked as a possible duplicate.
-/

namespace FixEngine

namespace Letter

/-- The gap fill from `first` to the number before `stop`. -/
def gapFill (first stop : ℕ) (time : Bytes) : Letter :=
  ⟨ascii "4", first, [⟨123, ascii "Y"⟩, ⟨36, toChars (toInt64 stop)⟩, ⟨43, ascii "Y"⟩, ⟨122, time⟩]⟩

/-- The request for the numbers from `first` to `last`. -/
def resendRequest (number first last : ℕ) : Letter :=
  ⟨ascii "2", number, [⟨7, toChars (toInt64 first)⟩, ⟨16, toChars (toInt64 last)⟩]⟩

/-- A Custom message. -/
def custom (number : ℕ) (payload : Bytes) : Letter :=
  ⟨MessageFactory.customType, number, [⟨9250, payload⟩]⟩

/-- A Custom message that is sent again. -/
def customAgain (number : ℕ) (payload time : Bytes) : Letter :=
  ⟨MessageFactory.customType, number, [⟨9250, payload⟩, ⟨43, ascii "Y"⟩, ⟨122, time⟩]⟩

/-- The payload of a Custom message. -/
def payload (letter : Letter) : Option Bytes :=
  if letter.type = MessageFactory.customType then Message.firstValue? letter.fields 9250 else none

theorem payload_customAgain (number : ℕ) (payload time : Bytes) :
    (customAgain number payload time).payload = some payload := by
  simp [Letter.payload, customAgain, Message.firstValue?]

section Legible

variable {number first stop : ℕ} {payload time : Bytes}

theorem legible_gapFill (time_ne_nil : time ≠ []) (noTime : soh ∉ time) (lt : first < 2 ^ 63) :
    (gapFill first stop time).Legible := by
  have clock : ∃ clock : Clock, clock.tick.nowFix = time :=
    ⟨⟨fun _ => time, 0, fun _ => time_ne_nil, fun _ => noTime, fun _ _ => rfl⟩, rfl⟩
  rcases clock with ⟨clock, now⟩
  have fitting := @fitting_call ⟨{}, {}, {}, clock⟩ (.sequenceResetGapFill first stop) trivial
  refine ⟨⟨_, (BuilderCall.sequenceResetGapFill first stop).get_schema, ?_⟩, lt⟩
  rw [gapFill, ← now]
  exact fitting

theorem legible_resendRequest (first last : ℕ) (lt : number < 2 ^ 63) :
    (resendRequest number first last).Legible :=
  ⟨⟨_, (BuilderCall.resendRequest first last).get_schema,
    @fitting_call ⟨{}, {}, {}, .standard⟩ (.resendRequest first last) trivial⟩, lt⟩

theorem legible_customAgain (nonempty : payload ≠ []) (noDelimiter : soh ∉ payload)
    (time_ne_nil : time ≠ []) (noTime : soh ∉ time) (lt : number < 2 ^ 63) :
    (customAgain number payload time).Legible := by
  refine ⟨⟨_, (BuilderCall.customMessage payload).get_schema, ?_, ?_⟩, lt⟩
  · intro field mem
    simp only [customAgain, List.mem_cons, List.not_mem_nil, or_false] at mem
    rcases mem with rfl | rfl | rfl
    · exact @BuilderCall.writable_fields (.customMessage payload) ⟨{}, {}, {}, .standard⟩
        ⟨nonempty, noDelimiter⟩ _ (List.mem_singleton_self _)
    · exact BuilderCall.writable_text _ (BuilderCall.knows_standard _ (by decide +kernel))
        (by norm_num) (by decide) (by decide)
    · exact BuilderCall.writable_text _ (BuilderCall.knows_standard _ (by decide +kernel))
        (by norm_num) time_ne_nil noTime
  · simp only [customAgain, List.map_cons, List.map_nil, BuilderCall.schema]
    decide +kernel

end Legible

end Letter

/-- What was sent under the numbers 1, 2, …: the payload of a Custom message, or nothing that is sent
again. -/
abbrev History := List (Option Bytes)

namespace Session

/-- The store of the session has the messages of the history. -/
structure Archives (session : Session) (history : History) : Prop where
  length_eq : session.store.outboundIndex.length = history.length
  few : history.length + 1 < word32
  admin : ∀ (i : ℕ) (index : MsgIndex), session.store.outboundIndex[i]? = some index → history[i]? = some none →
    ResendStream.noResend index.msgType = true
  custom : ∀ (i : ℕ) (index : MsgIndex) (payload : Bytes), session.store.outboundIndex[i]? = some index →
    history[i]? = some (some payload) →
      payload ≠ [] ∧ soh ∉ payload ∧ payload.length < 5 * 10 ^ 9 ∧
        ResendStream.noResend index.msgType = false ∧
        ∃ time off wire, time ≠ [] ∧ soh ∉ time ∧ time.length = session.clock.nowFix.length ∧
          wire = wireOf fix44 ((Letter.custom (i + 1) payload).body session.params time) ∧
          index = createMessageIndex wire off ∧ session.store.getMessageWire index = wire

/-- A session that can write what it has to. -/
structure Writes (session : Session) : Prop where
  running : session.stopped = false
  presentable : session.params.Presentable
  sender_lt : session.params.senderCompId.length < 10 ^ 9
  target_lt : session.params.targetCompId.length < 10 ^ 9
  time_lt : ∀ n, (session.clock.times n).length < word16

end Session

/-- The wires that answer a request for the numbers from `first` to `last`. -/
inductive Answer (params : SessionParameters) (history : History) (last : ℕ) :
    ℕ → List Bytes → Prop
  | done : Answer params history last (last + 1) []
  | gapFill {first stop : ℕ} {time wire : Bytes} {rest : List Bytes} (low : first < stop)
      (high : stop ≤ last + 1)
      (admin : ∀ number, first ≤ number → number < stop → history[number - 1]? = some none)
      (time_ne_nil : time ≠ []) (noTime : soh ∉ time)
      (written : (Letter.gapFill first stop time).Written params wire)
      (later : Answer params history last stop rest) : Answer params history last first (wire :: rest)
  | again {first : ℕ} {payload time wire : Bytes} {rest : List Bytes} (high : first ≤ last)
      (custom : history[first - 1]? = some (some payload)) (nonempty : payload ≠ [])
      (noDelimiter : soh ∉ payload) (time_ne_nil : time ≠ []) (noTime : soh ∉ time)
      (written : (Letter.customAgain first payload time).Written params wire)
      (later : Answer params history last (first + 1) rest) :
      Answer params history last first (wire :: rest)

theorem Answer.eq_nil {params : SessionParameters} {history : History} {last : ℕ}
    {wires : List Bytes} (answer : Answer params history last (last + 1) wires) : wires = [] := by
  cases answer with
  | done => rfl
  | gapFill low high => omega
  | again high => omega

namespace Session

section Answering

variable {session after : Session} {history : History} {stream : ResendStream}

/-- One round of the answering loop. -/
theorem answerResend_next (bounded : stream.Bounded) (rounds : ℕ) (session : Session) :
    ∃ stop, stream.currentIndex < stop ∧ stop ≤ stream.endSeqNo + 1 ∧
      answerResend (rounds + 1) stream session = answerResend rounds (stream.moveTo stop)
        (session.answerOne stream.currentIndex stop stream.atAdmin) ∧
      (stream.atAdmin = false → stop = stream.currentIndex + 1) ∧
      (stream.atAdmin = true → ∀ number, stream.currentIndex ≤ number → number < stop →
        ResendStream.isAdmin stream.outboundIndex number = true) := by
  rcases bounded.next_eq with ⟨stop, low, high, nextEq, single, run⟩
  have present : stream.entry.isNone = false := by
    have := bounded.entry_isSome
    cases found : stream.entry with
    | none => simp [found] at this
    | some index => rfl
  have stopEq : stop - 1 + 1 = stop := by omega
  have positive := bounded.positive
  refine ⟨stop, low, high, ?_, single, ?_⟩
  · simp only [answerResend, bounded.hasNext, if_true, present, Bool.false_eq_true, if_false, nextEq,
      stopEq]
    rfl
  · intro admin number from_le lt
    rw [← bounded.atAdmin_moveTo (by omega) (by omega)]
    exact (run admin).1 number from_le lt

/-- What is sent again changes nothing that an answer depends on. -/
structure Repeats (before after : Session) : Prop where
  store_eq : after.store = before.store
  params_eq : after.params = before.params
  stopped_eq : after.stopped = before.stopped
  times_eq : after.clock.times = before.clock.times
  nextOut_eq : after.seqProvider.nextOut = before.seqProvider.nextOut

theorem Repeats.refl (session : Session) : Repeats session session := ⟨rfl, rfl, rfl, rfl, rfl⟩

theorem Repeats.trans {first second third : Session} (left : Repeats first second)
    (right : Repeats second third) : Repeats first third :=
  ⟨right.store_eq.trans left.store_eq, right.params_eq.trans left.params_eq,
    right.stopped_eq.trans left.stopped_eq, right.times_eq.trans left.times_eq,
    right.nextOut_eq.trans left.nextOut_eq⟩

theorem repeats_send {outgoing : Outgoing} (again : outgoing.isResend = true) :
    Repeats session (session.send outgoing) := by
  have texts := sameTexts_send session outgoing
  have numbers := seqProvider_send session outgoing
  have store := store_send session outgoing
  rw [again, Bool.or_true, if_pos rfl] at store
  have keeps : Keeps session (session.send outgoing) ∧
      (outgoing.built session.msgFactory).2.seqProvider = session.seqProvider := by
    cases outgoing with
    | gapFill msgSeqNum newSeqNo =>
        exact ⟨session.keeps_sendSequenceResetGapFill msgSeqNum newSeqNo,
          session.msgFactory.seqProvider_sequenceResetGapFill msgSeqNum newSeqNo⟩
    | stored index wire =>
        exact ⟨session.keeps_sendBuilt _ true (by simp [Outgoing.built, msgFactory])
          (by simp [Outgoing.built, msgFactory]),
          session.msgFactory.seqProvider_regenerateMessage wire index⟩
    | _ => cases again
  exact ⟨store, keeps.1.params_eq, keeps.1.stopped_eq, texts.times_eq, by rw [numbers, keeps.2]⟩

theorem Repeats.writes (repeats : Repeats session after) (writes : session.Writes) :
    after.Writes := by
  refine ⟨repeats.stopped_eq.trans writes.running, ?_, ?_, ?_, ?_⟩
  · rw [repeats.params_eq]
    exact writes.presentable
  · rw [repeats.params_eq]
    exact writes.sender_lt
  · rw [repeats.params_eq]
    exact writes.target_lt
  · rw [repeats.times_eq]
    exact writes.time_lt

theorem Repeats.archives (repeats : Repeats session after) (archives : session.Archives history) :
    after.Archives history := by
  have width : after.clock.nowFix.length = session.clock.nowFix.length := by
    rw [Clock.nowFix, Clock.nowFix, repeats.times_eq]
    exact session.clock.length_times _ _
  refine ⟨?_, archives.few, ?_, ?_⟩
  · rw [repeats.store_eq]
    exact archives.length_eq
  · rw [repeats.store_eq]
    exact archives.admin
  · rw [repeats.store_eq, repeats.params_eq, width]
    exact archives.custom

/-- The store and the history agree on what is administrative. -/
theorem Archives.admin_of_isAdmin (archives : session.Archives history) {number : ℕ}
    (isAdmin : ResendStream.isAdmin session.store.outboundIndex number = true) :
    history[number - 1]? = some none := by
  rw [ResendStream.isAdmin] at isAdmin
  rcases found : session.store.outboundIndex[number - 1]? with _ | index
  · simp [found] at isAdmin
  · simp only [found, Option.map_some, Option.getD_some] at isAdmin
    have inside : number - 1 < history.length := by
      rw [← archives.length_eq]
      exact (List.getElem?_eq_some_iff.mp found).1
    rcases entry : history[number - 1] with _ | payload
    · rw [List.getElem?_eq_getElem inside, entry]
    · have custom := archives.custom _ index payload found
        (by rw [List.getElem?_eq_getElem inside, entry])
      rw [custom.2.2.2.1] at isAdmin
      cases isAdmin

theorem Archives.custom_of_not_atAdmin (archives : session.Archives history)
    (sameIndex : stream.outboundIndex = session.store.outboundIndex) (bounded : stream.Bounded)
    (other : stream.atAdmin = false) :
    ∃ payload, history[stream.currentIndex - 1]? = some (some payload) := by
  rcases found : stream.entry with _ | index
  · have present := bounded.entry_isSome
    rw [found] at present
    cases present
  · have resent : ResendStream.noResend index.msgType = false := by
      simpa [ResendStream.atAdmin, bounded.hasNext, found] using other
    rw [bounded.entry_eq, sameIndex] at found
    have inside : stream.currentIndex - 1 < history.length := by
      rw [← archives.length_eq]
      exact (List.getElem?_eq_some_iff.mp found).1
    rcases entry : history[stream.currentIndex - 1] with _ | payload
    · have admin := archives.admin _ index found (by rw [List.getElem?_eq_getElem inside, entry])
      rw [resent] at admin
      cases admin
    · exact ⟨payload, by rw [List.getElem?_eq_getElem inside, entry]⟩

/-- A gap fill as it is written. -/
theorem written_gapFill (writes : session.Writes) (first stop : ℕ) :
    ∃ time, time ≠ [] ∧ soh ∉ time ∧ (Letter.gapFill first stop time).Written session.params
      (session.msgFactory.sequenceResetGapFill first stop).1 := by
  have small : (fieldsText [⟨123, ascii "Y"⟩, ⟨36, toChars (toInt64 stop)⟩, ⟨43, ascii "Y"⟩,
      ⟨122, session.clock.tick.nowFix⟩]).length < 6 * 10 ^ 9 + 10 ^ 6 := by
    have time := writes.time_lt (session.clock.calls + 1)
    have number := length_toChars_toInt64_le stop
    have widths : (decimal 123).length = 3 ∧ (decimal 36).length = 2 ∧ (decimal 43).length = 2 ∧
        (decimal 122).length = 3 ∧ (ascii "Y").length = 1 := by decide
    generalize toChars (toInt64 stop) = text at number
    simp only [fieldsText_cons, fieldsText_nil, List.append_nil, List.length_append,
      length_fieldText, widths, Clock.nowFix, Clock.tick]
    simp only [word16] at time
    omega
  have time_lt := writes.time_lt session.clock.calls
  have wire := session.msgFactory.sequenceResetGapFill_wire first stop
    (length_stamped_lt writes.sender_lt writes.target_lt (by decide)
      (by simp only [word16] at time_lt; exact Nat.lt_trans time_lt (by decide)) small)
  refine ⟨session.clock.tick.nowFix, session.clock.times_ne_nil _, session.clock.soh_not_mem_times _,
    session.clock.nowFix, session.clock.times_ne_nil _, session.clock.soh_not_mem_times _, ?_⟩
  rw [wire]
  exact congrArg (fun version => wireOf version _) writes.presentable.version

/-- A request as it is written. -/
theorem written_resendRequest (writes : session.Writes) (first last : ℕ) :
    (Letter.resendRequest session.seqProvider.nextOut first last).Written session.params
      ((Outgoing.resendRequest first last).built session.msgFactory).1 := by
  have small : (fieldsText [⟨7, toChars (toInt64 first)⟩, ⟨16, toChars (toInt64 last)⟩]).length <
      6 * 10 ^ 9 + 10 ^ 6 := by
    have firstWidth := length_toChars_toInt64_le first
    have lastWidth := length_toChars_toInt64_le last
    have widths : (decimal 7).length = 1 ∧ (decimal 16).length = 2 := by decide
    generalize toChars (toInt64 first) = firstText at firstWidth
    generalize toChars (toInt64 last) = lastText at lastWidth
    simp only [fieldsText_cons, fieldsText_nil, List.append_nil, List.length_append,
      length_fieldText, widths]
    omega
  have time_lt := writes.time_lt session.clock.calls
  have fits : (fieldsText (session.msgFactory.bodyOf (ascii "2")
      ((Outgoing.resendRequest first last).fields session.params))).length < 10 ^ 10 :=
    length_stamped_lt writes.sender_lt writes.target_lt (by decide)
      (by simp only [word16] at time_lt; exact Nat.lt_trans time_lt (by decide)) small
  have wire := MessageFactory.build_wire session.msgFactory _ _ fits
  refine ⟨session.clock.nowFix, session.clock.times_ne_nil _, session.clock.soh_not_mem_times _, ?_⟩
  rw [Outgoing.built_eq rfl]
  refine wire.trans ?_
  exact congrArg (fun version => wireOf version _) writes.presentable.version

/-- A Custom message of the history as it is written again. -/
theorem written_customAgain (writes : session.Writes) (archives : session.Archives history)
    {number : ℕ} {payload : Bytes} (positive : 1 ≤ number)
    (custom : history[number - 1]? = some (some payload)) :
    payload ≠ [] ∧ soh ∉ payload ∧ ∃ time index, time ≠ [] ∧ soh ∉ time ∧
      session.store.getMessageIndex number = some index ∧
      (Letter.customAgain number payload time).Written session.params (session.msgFactory.regenerateMessage
        (session.store.getMessageWire index) index).1 := by
  have inside : number - 1 < session.store.outboundIndex.length := by
    rw [archives.length_eq]
    exact (List.getElem?_eq_some_iff.mp custom).1
  have found := List.getElem?_eq_getElem inside
  rcases archives.custom _ _ payload found custom with
    ⟨nonempty, noDelimiter, small, -, time, off, wire, time_ne_nil, noTime, width, wire_eq, index_eq,
      read⟩
  have number_eq : number - 1 + 1 = number := by omega
  rw [number_eq] at wire_eq
  have time_lt := writes.time_lt session.clock.calls
  have fixed : soh ∉ MessageFactory.customType ∧ MessageFactory.customType.length ≤ 8 := by decide
  have regenerable : MessageFactory.Regenerable session.params MessageFactory.customType time
      [⟨9250, payload⟩] := by
    refine ⟨writes.presentable.plain, writes.sender_lt, writes.target_lt, fixed.1, fixed.2, noTime,
      by rw [width]; exact time_lt, ?_, ?_⟩
    · intro field mem
      rw [List.mem_singleton.mp mem]
      exact noDelimiter
    · intro field mem
      rw [List.mem_singleton.mp mem]
      exact (by decide : 9250 ∉ [34, 35, 43, 52, 122])
  have fits : (fieldsText (MessageFactory.headerFields session.params MessageFactory.customType number
      session.msgFactory.clock.nowFix ++ ([⟨9250, payload⟩] ++ [⟨43, ascii "Y"⟩,
        ⟨122, time⟩]))).length < 10 ^ 10 := by
    have widths : (decimal 9250).length = 4 ∧ (decimal 43).length = 2 ∧ (decimal 122).length = 3 ∧
        (ascii "Y").length = 1 := by decide
    simp only [word16] at time_lt
    refine length_stamped_lt writes.sender_lt writes.target_lt fixed.2
      (Nat.lt_trans time_lt (by decide)) ?_
    simp only [List.cons_append, List.nil_append, fieldsText_cons, fieldsText_nil, List.append_nil,
      List.length_append, length_fieldText, widths, width, Clock.nowFix]
    omega
  have regenerated := MessageFactory.regenerateMessage_stamped regenerable writes.presentable.version
    writes.presentable.version width.symm fits off
  refine ⟨nonempty, noDelimiter, time, session.store.outboundIndex[number - 1], time_ne_nil, noTime,
    ?_, session.clock.nowFix, session.clock.times_ne_nil _, session.clock.soh_not_mem_times _, ?_⟩
  · rw [MessageStore.getMessageIndex, if_neg (by omega)]
    exact found
  · rw [read, index_eq, wire_eq]
    exact regenerated

/-- A Custom message that is sent again. -/
theorem answerOne_again (writes : session.Writes) (archives : session.Archives history)
    {first : ℕ} {payload : Bytes} (positive : 1 ≤ first) (stop : ℕ)
    (custom : history[first - 1]? = some (some payload)) :
    Repeats session (session.answerOne first stop false) ∧ payload ≠ [] ∧ soh ∉ payload ∧
      ∃ time type wire, time ≠ [] ∧ soh ∉ time ∧
        (Letter.customAgain first payload time).Written session.params wire ∧
        sentMessages (session.answerOne first stop false).trace =
          sentMessages session.trace ++ [(type, wire)] := by
  rcases written_customAgain writes archives positive custom with
    ⟨nonempty, noDelimiter, time, index, time_ne_nil, noTime, found, written⟩
  have again : session.answerOne first stop false =
      session.send (.stored index (session.store.getMessageWire index)) := by
    simp only [answerOne, Bool.false_eq_true, if_false, resendStored, found]
    rfl
  rw [again]
  refine ⟨repeats_send rfl, nonempty, noDelimiter, time, index.msgType, _, time_ne_nil, noTime,
    written, ?_⟩
  rw [sentMessages_send, if_neg (by simp [writes.running])]
  rfl

/-- A run of administrative messages that is filled. -/
theorem answerOne_gapFill (writes : session.Writes) (first : ℕ) {stop : ℕ} (small : stop < word32) :
    Repeats session (session.answerOne first stop true) ∧
      ∃ time type wire, time ≠ [] ∧ soh ∉ time ∧
        (Letter.gapFill first stop time).Written session.params wire ∧
        sentMessages (session.answerOne first stop true).trace =
          sentMessages session.trace ++ [(type, wire)] := by
  rcases written_gapFill writes first stop with ⟨time, time_ne_nil, noTime, written⟩
  have filled : session.answerOne first stop true = session.send (.gapFill first stop) := by
    rw [answerOne, if_pos rfl, Nat.mod_eq_of_lt small]
    rfl
  rw [filled]
  refine ⟨repeats_send rfl, time, ascii "4", _, time_ne_nil, noTime, written, ?_⟩
  rw [sentMessages_send, if_neg (by simp [writes.running])]
  rfl

/-- The loop answers the rest of the range, and leaves what it answers from as it is. -/
theorem answerResend_answers (rounds : ℕ) (writes : session.Writes)
    (archives : session.Archives history)
    (sameIndex : stream.outboundIndex = session.store.outboundIndex)
    (positive : 1 ≤ stream.currentIndex) (high : stream.currentIndex ≤ stream.endSeqNo + 1)
    (covered : stream.endSeqNo ≤ history.length)
    (enough : stream.endSeqNo + 1 - stream.currentIndex ≤ rounds) :
    Repeats session (answerResend rounds stream session) ∧
      ∃ sent, sentMessages (answerResend rounds stream session).trace =
          sentMessages session.trace ++ sent ∧
        Answer session.params history stream.endSeqNo stream.currentIndex
          (sent.map Prod.snd) := by
  have few := archives.few
  induction rounds generalizing stream session with
  | zero =>
      have stands : stream.currentIndex = stream.endSeqNo + 1 := by omega
      have past : stream.hasNext = false := by simp [ResendStream.hasNext, stands]
      simp only [answerResend, past, Bool.false_eq_true, if_false, stands]
      exact ⟨.refl session, [], by simp, .done⟩
  | succ rounds ih =>
      by_cases past : stream.currentIndex = stream.endSeqNo + 1
      · have ends : stream.hasNext = false := by simp [ResendStream.hasNext, past]
        simp only [answerResend, ends, Bool.false_eq_true, if_false, past]
        exact ⟨.refl session, [], by simp, .done⟩
      · have bounded : stream.Bounded := by
          refine ⟨positive, by omega, ?_, ?_⟩
          · rw [sameIndex, archives.length_eq]
            exact covered
          · rw [sameIndex, archives.length_eq]
            omega
        rcases answerResend_next bounded rounds session with ⟨stop, low, stop_le, next, single, run⟩
        have small : stop < word32 := by omega
        have position : (stream.moveTo stop).currentIndex = stop := Nat.mod_eq_of_lt small
        -- What is written for the first run, and the rest from there.
        have goesOn : ∀ after type wire, Repeats session after →
            sentMessages after.trace = sentMessages session.trace ++ [(type, wire)] →
            (∀ rest, Answer session.params history stream.endSeqNo stop rest →
              Answer session.params history stream.endSeqNo stream.currentIndex (wire :: rest)) →
            Repeats session (answerResend rounds (stream.moveTo stop) after) ∧
              ∃ sent, sentMessages (answerResend rounds (stream.moveTo stop) after).trace =
                  sentMessages session.trace ++ sent ∧
                Answer session.params history stream.endSeqNo stream.currentIndex
                  (sent.map Prod.snd) := by
          intro after type wire repeats written extend
          have later := @ih after (stream.moveTo stop) (repeats.writes writes)
            (repeats.archives archives) (by rw [repeats.store_eq]; exact sameIndex)
            (by rw [position]; omega) (by rw [position]; exact stop_le) covered
            (by rw [position]; simp only [ResendStream.moveTo]; omega)
          rcases later with ⟨others, sent, sentEq, answer⟩
          rw [position, repeats.params_eq] at answer
          refine ⟨repeats.trans others, (type, wire) :: sent, ?_, extend _ answer⟩
          rw [sentEq, written, List.append_assoc, List.singleton_append]
        rw [next]
        cases admin : stream.atAdmin with
        | true =>
            rcases answerOne_gapFill writes stream.currentIndex small with
              ⟨repeats, time, type, wire, time_ne_nil, noTime, written, sentEq⟩
            refine goesOn _ type wire repeats sentEq fun rest answer =>
              .gapFill low stop_le ?_ time_ne_nil noTime written answer
            intro number from_le lt
            have isAdmin := run admin number from_le lt
            rw [sameIndex] at isAdmin
            exact archives.admin_of_isAdmin isAdmin
        | false =>
            have other := archives.custom_of_not_atAdmin sameIndex bounded admin
            rcases other with ⟨payload, custom⟩
            rcases answerOne_again writes archives positive stop custom with
              ⟨repeats, nonempty, noDelimiter, time, type, wire, time_ne_nil, noTime, written, sentEq⟩
            refine goesOn _ type wire repeats sentEq fun rest answer => ?_
            rw [single admin] at answer
            exact .again bounded.within custom nonempty noDelimiter time_ne_nil noTime written answer

/-- A request for numbers that have been sent. -/
theorem handleResendRequest_answers {first last : ℕ} (writes : session.Writes)
    (archives : session.Archives history)
    (nextOut_eq : session.seqProvider.nextOut = history.length + 1) {view : ValidMessageView}
    (firstText : view.message.firstValue? 7 = some (toChars (toInt64 first)))
    (lastText : view.message.firstValue? 16 = some (toChars (toInt64 last)))
    (positive : 1 ≤ first) (low : first ≤ last) (high : last ≤ history.length) :
    Repeats session (session.handleResendRequest view) ∧
      ∃ sent, sentMessages (session.handleResendRequest view).trace =
          sentMessages session.trace ++ sent ∧
        Answer session.params history last first (sent.map Prod.snd) := by
  have few := archives.few
  simp only [word32] at few
  have number : ∀ n, n ≤ last → (fromChars 32 (toChars (toInt64 n))).value.getD 0 = n := by
    intro n le
    rw [toInt64_eq (by omega), toChars_natCast, value_of_whole (whole_fromChars_decimal (by omega)),
      Option.getD_some]
  have stop : session.resendEnd last = last := by
    have := decide_eq_false (show ¬session.seqProvider.nextOut ≤ last by omega)
    simp only [resendEnd, this, Bool.or_false, decide_eq_true_eq]
    rw [if_neg (by omega)]
  have answers := @answerResend_answers session history (session.store.getResendStream first last)
    (last + 2 - first) writes archives rfl positive
    (by simp only [MessageStore.getResendStream]; omega) high
    (by simp only [MessageStore.getResendStream]; omega)
  simp only [handleResendRequest, firstText, lastText, number first low, number last (Nat.le_refl _),
    stop]
  exact answers

end Answering

end Session

end FixEngine
