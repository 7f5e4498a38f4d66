import FixEngine.Outbound.Edits

/-!
# Messages that are sent again

A wire that was built with a stamped header and carries neither PossDupFlag nor OrigSendingTime has
an entry that points at its SendingTime only. Sent again, it is the wire form of the same message
with the new time, and the two fields appended. A gap fill is built like any other message.
-/

namespace FixEngine

namespace MsgIndex

/-- Fields with other tags leave the entry alone. -/
theorem recordFields_other {fields : List Field} {index : MsgIndex} {pos : ℕ}
    (other : ∀ field ∈ fields, field.tag ∉ [34, 35, 43, 52, 122]) :
    recordFields pos fields index = index := by
  induction fields generalizing pos index with
  | nil => rfl
  | cons first rest ih =>
      have here := other first (List.mem_cons_self ..)
      simp only [List.mem_cons, List.not_mem_nil, or_false, not_or] at here
      have unchanged : index.record (decimal first.tag) first.value
          (pos + (decimal first.tag).length + 1) = index := by
        simp [record_decimal, here]
      rw [recordFields, unchanged, ih fun field mem => other field (List.mem_cons_of_mem _ mem)]

end MsgIndex

namespace MessageFactory

section Regenerate

variable {params : SessionParameters} {type time : Bytes} {number : ℕ} {fields : List Field}

/-- The body of a stored message that can be sent again. -/
structure Regenerable (params : SessionParameters) (type time : Bytes) (fields : List Field) :
    Prop where
  plain : params.Plain
  sender_lt : params.senderCompId.length < 10 ^ 9
  target_lt : params.targetCompId.length < 10 ^ 9
  noType : soh ∉ type
  short : type.length ≤ 8
  noTime : soh ∉ time
  time_lt : time.length < word16
  noDelimiter : ∀ field ∈ fields, soh ∉ field.value
  /-- There is nothing to overwrite but the SendingTime. -/
  unmarked : ∀ field ∈ fields, field.tag ∉ [34, 35, 43, 52, 122]

/-- The fields of a stamped header before the SendingTime. -/
def untimed (params : SessionParameters) (type : Bytes) (number : ℕ) : List Field :=
  [⟨35, type⟩, ⟨34, toChars (toInt64 number)⟩, ⟨49, params.senderCompId⟩,
    ⟨56, params.targetCompId⟩]

theorem stamped_eq (params : SessionParameters) (type time : Bytes) (number : ℕ)
    (fields : List Field) : headerFields params type number time ++ fields =
      untimed params type number ++ ⟨52, time⟩ :: fields := rfl

theorem length_untimed_lt (regenerable : Regenerable params type time fields) (number : ℕ) :
    (fieldsText (untimed params type number)).length < 2 * 10 ^ 9 + 60 := by
  have widths : ∀ tag ∈ [35, 34, 49, 56], (decimal tag).length = 2 := by decide
  have numberWidth := length_toChars_toInt64_le number
  have sender := regenerable.sender_lt
  have target := regenerable.target_lt
  have short := regenerable.short
  simp only [untimed, fieldsText_cons, fieldsText_nil, List.length_append, List.length_nil,
    length_fieldText, widths 35 (by decide), widths 34 (by decide), widths 49 (by decide),
    widths 56 (by decide)]
  omega

theorem untimed_other (regenerable : Regenerable params type time fields) (number : ℕ) {tag : ℕ}
    (patched : tag ∈ [43, 52, 122]) :
    ∀ field ∈ untimed params type number ++ fields, field.tag ≠ tag := by
  intro field mem same
  rcases List.mem_append.mp mem with header | later
  · have standard : field.tag ∈ [35, 34, 49, 56] := by
      simp only [untimed, List.mem_cons, List.not_mem_nil, or_false] at header
      rcases header with rfl | rfl | rfl | rfl <;> simp
    simp only [List.mem_cons, List.not_mem_nil, or_false] at standard patched
    omega
  · apply regenerable.unmarked field later
    rw [same]
    simp only [List.mem_cons, List.not_mem_nil, or_false] at patched ⊢
    omega

theorem unmarked_stamped (regenerable : Regenerable params type time fields) (number : ℕ) :
    ∀ tag ∈ [43, 122], ∀ field ∈ headerFields params type number time ++ fields,
      field.tag ≠ tag := by
  intro tag marks field mem
  rw [stamped_eq] at mem
  have patched : tag ∈ [43, 52, 122] := by
    simp only [List.mem_cons, List.not_mem_nil, or_false] at marks ⊢
    omega
  have others := untimed_other regenerable number patched
  rcases List.mem_append.mp mem with before | rest
  · exact others field (List.mem_append_left _ before)
  rcases List.mem_cons.mp rest with rfl | after
  · simp only [List.mem_cons, List.not_mem_nil, or_false] at marks
    rcases marks with rfl | rfl <;> simp
  · exact others field (List.mem_append_right _ after)

/-- The entry of a stamped message has its type and points at its SendingTime only. -/
theorem index_times (regenerable : Regenerable params type time fields) (number : ℕ)
    (version : params.fixVersion = fix44) (off : ℕ) :
    let body := headerFields params type number time ++ fields
    let index := createMessageIndex (wireOf fix44 body) off
    index.msgType = type.take 2 ∧ index.off43 = -1 ∧ index.off122 = -1 ∧
      index.len52 = time.length ∧ index.off52 = toInt32 (bodyBegin body +
        ((fieldsText (untimed params type number)).length + (decimal 52).length + 1)) := by
  intro body index
  have noBody : ∀ field ∈ body, soh ∉ field.value := by
    intro field mem
    rcases List.mem_append.mp mem with header | later
    · simp only [headerFields, List.mem_cons, List.not_mem_nil, or_false] at header
      rcases header with rfl | rfl | rfl | rfl | rfl
      · exact regenerable.noType
      · simp only [soh_not_mem_toChars, not_false_eq_true]
      · exact regenerable.plain.sender
      · exact regenerable.plain.target
      · exact regenerable.noTime
    · exact regenerable.noDelimiter field later
  have scanned : scannedFields fix44 body =
      (⟨8, fix44⟩ :: ⟨9, decimal (fieldsText body).length⟩ :: untimed params type number) ++
        (⟨52, time⟩ :: fields.takeWhile (·.tag ≠ 10)) := by
    simp [scannedFields, body, headerFields, untimed]
  have others : ∀ field ∈ fields.takeWhile (·.tag ≠ 10), field.tag ∉ [34, 35, 43, 52, 122] :=
    fun field mem => regenerable.unmarked field ((List.takeWhile_prefix _).subset mem)
  have plain := regenerable.plain.version
  rw [version] at plain
  have entry : index = _ := createMessageIndex_wireOf plain noBody off
  rw [scanned, MsgIndex.recordFields_append, MsgIndex.recordFields,
    MsgIndex.recordFields_other others] at entry
  have place : (fieldsText (⟨8, fix44⟩ :: ⟨9, decimal (fieldsText body).length⟩ ::
      untimed params type number)).length + (decimal 52).length + 1 = bodyBegin body +
        ((fieldsText (untimed params type number)).length + (decimal 52).length + 1) := by
    simp [bodyBegin]
    omega
  rw [entry]
  simp only [Nat.zero_add, place]
  simp only [untimed, MsgIndex.recordFields, MsgIndex.record_decimal]
  simp [Nat.mod_eq_of_lt regenerable.time_lt]

/-- The entry of a stamped message locates what is edited: the SendingTime, and nothing else. -/
theorem editable_stamped (regenerable : Regenerable params type time fields)
    (version : params.fixVersion = fix44)
    (fits : (fieldsText (headerFields params type number time ++ fields)).length < 10 ^ 10)
    (off : ℕ) :
    let body := headerFields params type number time ++ fields
    Editable (createMessageIndex (wireOf fix44 body) off) body time := by
  intro body
  have absent := unmarked_stamped regenerable number
  have others := untimed_other regenerable number (by decide : 52 ∈ [43, 52, 122])
  have begins := bodyBegin_lt fits
  have before_lt := length_untimed_lt regenerable number
  have width : (decimal 52).length = 2 := by decide
  rcases index_times regenerable number version off with
    ⟨_, dupNone, origNone, timeLen, timeOff⟩
  generalize createMessageIndex (wireOf fix44 body) off = index at *
  refine ⟨⟨_, _, stamped_eq .., others⟩, ?_, ?_, .inl ⟨absent 43 (by decide), dupNone⟩,
    .inl ⟨absent 122 (by decide), origNone⟩,
    .inr ⟨_, time, _, stamped_eq .., others, ?_, timeLen⟩⟩
  · exact fun field mem same => absurd same (absent 43 (by decide) field mem)
  · exact fun field mem same => absurd same (absent 122 (by decide) field mem)
  · rw [MsgIndex.point_time, timeOff, toInt32_eq (by omega)]

/-- What a resend makes of the fields of a stamped message. -/
theorem resentFields_stamped (regenerable : Regenerable params type time fields) (newTime : Bytes) :
    resentFields time newTime (headerFields params type number time ++ fields) =
      headerFields params type number newTime ++ (fields ++ [⟨43, ascii "Y"⟩, ⟨122, time⟩]) := by
  have absent := unmarked_stamped regenerable number
  have others := untimed_other regenerable number (by decide : 52 ∈ [43, 52, 122])
  have noOrig : ∀ field ∈ headerFields params type number time ++ fields ++ [⟨43, ascii "Y"⟩],
      field.tag ≠ 122 := by
    intro field mem
    rcases List.mem_append.mp mem with stamped | mark
    · exact absent 122 (by decide) field stamped
    · rw [List.mem_singleton.mp mark]
      decide
  have timeOnly : ∀ field ∈ untimed params type number ++
      (fields ++ [⟨43, ascii "Y"⟩, ⟨122, time⟩]), field.tag ≠ 52 := by
    intro field mem
    rw [← List.append_assoc] at mem
    rcases List.mem_append.mp mem with stamped | marks
    · exact others field stamped
    · simp only [List.mem_cons, List.not_mem_nil, or_false] at marks
      rcases marks with rfl | rfl <;> simp
  rw [resentFields, setOrAppend_of_absent (absent 43 (by decide)), setOrAppend_of_absent noOrig,
    stamped_eq, stamped_eq, List.append_assoc, List.append_assoc, List.cons_append]
  exact setValue_split timeOnly time

/-- A stored message is sent again as the message it was, with the new time and the marks. -/
theorem regenerateMessage_stamped {factory : MessageFactory}
    (regenerable : Regenerable params type time fields) (version : params.fixVersion = fix44)
    (factoryVersion : factory.params.fixVersion = fix44)
    (sameLength : factory.clock.nowFix.length = time.length)
    (fits : (fieldsText (headerFields params type number factory.clock.nowFix ++
      (fields ++ [⟨43, ascii "Y"⟩, ⟨122, time⟩]))).length < 10 ^ 10) (off : ℕ) :
    let wire := wireOf fix44 (headerFields params type number time ++ fields)
    (factory.regenerateMessage wire (createMessageIndex wire off)).1 =
      wireOf fix44 (headerFields params type number factory.clock.nowFix ++
        (fields ++ [⟨43, ascii "Y"⟩, ⟨122, time⟩])) := by
  intro wire
  have shorter : (fieldsText (headerFields params type number time ++ fields)).length < 10 ^ 10 := by
    simp only [headerFields, fieldsText_append, fieldsText_cons, List.length_append,
      length_fieldText, sameLength] at fits ⊢
    omega
  have editable := editable_stamped regenerable version shorter off
  rw [← resentFields_stamped regenerable] at fits ⊢
  exact (regenerateMessage_editable factory editable factoryVersion sameLength fits).1

/-- A gap fill before its trailer. -/
theorem building_gapFill (factory : MessageFactory) (msgSeqNum newSeqNo : ℕ) :
    (((((factory.addHeader (ascii "4") msgSeqNum).addField ⟨123, ascii "Y"⟩).addField
      ⟨36, toChars (toInt64 newSeqNo)⟩).addField ⟨43, ascii "Y"⟩).addTime 122).Building
        (fieldsText (headerFields factory.params (ascii "4") msgSeqNum factory.clock.nowFix ++
          [⟨123, ascii "Y"⟩, ⟨36, toChars (toInt64 newSeqNo)⟩, ⟨43, ascii "Y"⟩,
            ⟨122, factory.clock.tick.nowFix⟩])) := by
  have written := ((((factory.building_addHeader (ascii "4") msgSeqNum).addField
    ⟨123, ascii "Y"⟩).addField ⟨36, toChars (toInt64 newSeqNo)⟩).addField
    ⟨43, ascii "Y"⟩).addTime 122
  simp only [clock_addField, clock_addHeader, List.append_assoc] at written
  simpa using written

theorem sequenceResetGapFill_wire (factory : MessageFactory) (msgSeqNum newSeqNo : ℕ)
    (fits : (fieldsText (headerFields factory.params (ascii "4") msgSeqNum factory.clock.nowFix ++
      [⟨123, ascii "Y"⟩, ⟨36, toChars (toInt64 newSeqNo)⟩, ⟨43, ascii "Y"⟩,
        ⟨122, factory.clock.tick.nowFix⟩])).length < 10 ^ 10) :
    (factory.sequenceResetGapFill msgSeqNum newSeqNo).1 =
      wireOf factory.params.fixVersion (headerFields factory.params (ascii "4") msgSeqNum
        factory.clock.nowFix ++ [⟨123, ascii "Y"⟩, ⟨36, toChars (toInt64 newSeqNo)⟩,
          ⟨43, ascii "Y"⟩, ⟨122, factory.clock.tick.nowFix⟩]) := by
  have complete := (factory.building_gapFill msgSeqNum newSeqNo).stampTrailer fits
  simp only [params_addTime, params_addField, params_addHeader] at complete
  simp only [sequenceResetGapFill]
  rw [complete]

end Regenerate

end MessageFactory

end FixEngine
