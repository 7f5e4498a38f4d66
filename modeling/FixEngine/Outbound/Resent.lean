import FixEngine.Outbound.Entries
import FixEngine.Outbound.Regenerate
import FixEngine.Wire.Overlong

/-!
# What a message is when it is sent again

The entry of a message that a factory built locates the fields that a resend edits. Whether the
message carried PossDupFlag and OrigSendingTime or not, the result is the message with the new times
and flag, and every edit stays within what was written.
-/

namespace FixEngine

namespace MessageFactory

/-- A message that can be sent again. -/
structure Resendable (wire : Bytes) (body : List Field) (time : Bytes) : Prop where
  wellFormed : ∀ field ∈ body, field.WellFormed
  unframed : ∀ field ∈ body, field.tag ∉ [8, 9, 10]
  timed : Only body 52 time
  dup_once : body.countP (·.tag = 43) ≤ 1
  dup_length : ∀ field ∈ body, field.tag = 43 → field.value.length = 1
  orig_once : body.countP (·.tag = 122) ≤ 1
  orig_length : ∀ field ∈ body, field.tag = 122 → field.value.length = time.length
  wire_lt : wire.length < 2 ^ 31
  time_lt : time.length < word16

section Index

variable {body : List Field} {tag : ℕ}

/-- The entry of a wire locates the fields that occur once. -/
theorem locates_createMessageIndex (wellFormed : ∀ field ∈ body, field.WellFormed)
    (unframed : ∀ field ∈ body, field.tag ∉ [8, 9, 10]) (patched : tag ∈ MsgIndex.patchTags)
    (once : body.countP (·.tag = tag) ≤ 1)
    (short : ∀ field ∈ body, field.tag = tag → field.value.length < word16)
    (small : (wireOf fix44 body).length < 2 ^ 31) (off : ℕ) :
    (createMessageIndex (wireOf fix44 body) off).Locates (bodyBegin body) body tag := by
  have notFrame : tag ≠ 8 ∧ tag ≠ 9 := by
    simp only [MsgIndex.patchTags, List.mem_cons, List.not_mem_nil, or_false] at patched
    omega
  have whole : body.takeWhile (·.tag ≠ 10) = body := by
    rw [List.takeWhile_eq_self_iff]
    intro field mem
    have := unframed field mem
    simp only [List.mem_cons, List.not_mem_nil, or_false, not_or] at this
    simpa using this.2.2
  have fresh : (({ off := off % word32, len := (wireOf fix44 body).length % word32 } :
      MsgIndex).point tag).1 = -1 := by
    simp only [MsgIndex.patchTags, List.mem_cons, List.not_mem_nil, or_false] at patched
    rcases patched with rfl | rfl | rfl | rfl <;> rfl
  have shortAll : ∀ field ∈ scannedFields fix44 body, field.tag = tag →
      field.value.length < word16 := by
    intro field mem same
    simp only [scannedFields, whole, List.mem_cons] at mem
    rcases mem with rfl | rfl | mem
    · exact absurd same.symm notFrame.1
    · exact absurd same.symm notFrame.2
    · exact short field mem same
  have wireEq : fieldsText (scannedFields fix44 body) ++
      fieldText ⟨10, checksumText (byteSum (frontOf fix44 body))⟩ = wireOf fix44 body := by
    rw [scannedFields, whole, wireOf_eq]
  have points := MsgIndex.pointsToLast_recordFields patched fresh
    (by rw [wireEq]; exact small) shortAll
  rw [createMessageIndex_wireOf (by decide) fun field mem => (wellFormed field mem).soh_not_mem]
  generalize MsgIndex.recordFields 0 (scannedFields fix44 body)
    { off := off % word32, len := (wireOf fix44 body).length % word32 } = index at points
  rcases points with ⟨absent, none⟩ | ⟨before, value, after, split, last, offEq, lenEq, _⟩
  · refine .inl ⟨fun field mem => absent field ?_, none⟩
    rw [scannedFields, whole]
    exact List.mem_cons_of_mem _ (List.mem_cons_of_mem _ mem)
  · rw [scannedFields, whole] at split
    rcases before with _ | ⟨first, _ | ⟨second, before⟩⟩
    · have same := (List.cons.inj split).1
      exact absurd (congrArg Field.tag same).symm notFrame.1
    · have same := (List.cons.inj (List.cons.inj split).2).1
      exact absurd (congrArg Field.tag same).symm notFrame.2
    · simp only [List.cons_append, List.cons.injEq] at split
      rcases split with ⟨rfl, rfl, bodyEq⟩
      refine .inr ⟨before, value, after, bodyEq, ?_, ?_, lenEq⟩
      · intro field mem same
        rcases List.mem_append.mp mem with inFront | inRear
        · have twice := once
          rw [bodyEq, List.countP_append, List.countP_cons] at twice
          have positive : 0 < before.countP (·.tag = tag) :=
            List.countP_pos_iff.mpr ⟨field, inFront, by simpa using same⟩
          simp only [decide_true, if_true] at twice
          omega
        · exact last field inRear same
      · rw [offEq, bodyBegin]
        simp only [fieldsText_cons, fieldsText_nil, List.length_append, List.append_nil]
        congr 1
        omega

end Index

section Resend

variable {wire time : Bytes} {body : List Field}

/-- Its entry locates what is edited. -/
theorem Resendable.editable (resendable : Resendable (wireOf fix44 body) body time) (off : ℕ) :
    Editable (createMessageIndex (wireOf fix44 body) off) body time := by
  have locates : ∀ tag, tag ∈ MsgIndex.patchTags → body.countP (·.tag = tag) ≤ 1 →
      (∀ field ∈ body, field.tag = tag → field.value.length < word16) →
      (createMessageIndex (wireOf fix44 body) off).Locates (bodyBegin body) body tag :=
    fun tag patched once short => locates_createMessageIndex resendable.wellFormed
      resendable.unframed patched once short resendable.wire_lt off
  refine ⟨resendable.timed, resendable.dup_length, resendable.orig_length,
    locates 43 (by decide) resendable.dup_once ?_, locates 122 (by decide) resendable.orig_once ?_,
    locates 52 (by decide) (Nat.le_of_eq resendable.timed.countP_eq) ?_⟩
  · intro field mem same
    rw [resendable.dup_length field mem same]
    decide
  · intro field mem same
    rw [resendable.orig_length field mem same]
    exact resendable.time_lt
  · intro field mem same
    rw [resendable.timed.eq_of_mem mem same]
    exact resendable.time_lt

/-- Sending a message again writes the wire form of the message with the new times and flag, and
every edit replaces a value by one of its length. -/
theorem regenerateMessage_resent (factory : MessageFactory)
    (resendable : Resendable (wireOf fix44 body) body time)
    (version : factory.params.fixVersion = fix44)
    (sameLength : factory.clock.nowFix.length = time.length) (off : ℕ) :
    (factory.regenerateMessage (wireOf fix44 body) (createMessageIndex (wireOf fix44 body) off)).1 =
        wireOf fix44 (resentFields time factory.clock.nowFix body) ∧
      factory.RegenerateAsserts (wireOf fix44 body)
        (createMessageIndex (wireOf fix44 body) off) := by
  have editable := resendable.editable off
  refine regenerateMessage_editable factory editable version sameLength ?_
  -- The two fields that may be appended are short.
  rcases editable.lengths sameLength with ⟨dupLengths, origLengths, timeLengths⟩
  have dupLe := length_setOrAppend_le dupLengths
  have origLe := length_setOrAppend_le origLengths
  have widths : (fieldText ⟨43, ascii "Y"⟩).length = 5 ∧ (decimal 122).length = 3 := by decide
  have timeLt := resendable.time_lt
  have small := resendable.wire_lt
  rw [widths.1] at dupLe
  rw [length_fieldText, widths.2] at origLe
  rw [wireOf_eq, fieldsText_cons, fieldsText_cons] at small
  simp only [List.length_append] at small
  simp only [word16] at origLe timeLt
  rw [resentFields, length_fieldsText_setValue timeLengths]
  omega

end Resend

/-- The wires that a factory builds, with the fields of their bodies. All builders but the two that
are used for resends are `build` with a type and fields of their own. -/
inductive Built : Bytes → List Field → Prop
  | build (factory : MessageFactory) (type : Bytes) (fields : List Field)
      (version : factory.params.fixVersion = fix44) :
      Built (factory.build type fields).1 (factory.bodyOf type fields)
  | gapFill (factory : MessageFactory) (msgSeqNum newSeqNo : ℕ)
      (version : factory.params.fixVersion = fix44) :
      Built (factory.sequenceResetGapFill msgSeqNum newSeqNo).1
        (headerFields factory.params (ascii "4") msgSeqNum factory.clock.nowFix ++
          [⟨123, ascii "Y"⟩, ⟨36, toChars (toInt64 newSeqNo)⟩, ⟨43, ascii "Y"⟩,
            ⟨122, factory.clock.tick.nowFix⟩])
  | regenerated (factory : MessageFactory) {wire time : Bytes} {body : List Field}
      (built : Built wire body) (resendable : Resendable wire body time)
      (version : factory.params.fixVersion = fix44)
      (sameLength : factory.clock.nowFix.length = time.length) (off : ℕ) :
      Built (factory.regenerateMessage wire (createMessageIndex wire off)).1
        (resentFields time factory.clock.nowFix body)

section Built

variable {wire time : Bytes} {body : List Field}

theorem fst_build (factory : MessageFactory) (type : Bytes) (fields : List Field) :
    (factory.build type fields).1 = (fields.foldl MessageFactory.addField
      (factory.stampHeader type)).stampTrailer.scratch.getBufferView := by
  rw [build]

theorem fst_sequenceResetGapFill (factory : MessageFactory) (msgSeqNum newSeqNo : ℕ) :
    (factory.sequenceResetGapFill msgSeqNum newSeqNo).1 =
      (((((factory.addHeader (ascii "4") msgSeqNum).addField ⟨123, ascii "Y"⟩).addField
        ⟨36, toChars (toInt64 newSeqNo)⟩).addField ⟨43, ascii "Y"⟩).addTime
          122).stampTrailer.scratch.getBufferView := by
  simp only [sequenceResetGapFill]

/-- What a factory builds is the wire form of the fields. -/
theorem Built.wire_eq (built : Built wire body) (small : wire.length < 2 ^ 31) :
    wire = wireOf fix44 body := by
  induction built with
  | build factory type fields version =>
      have longer := (factory.building_build type fields).length_le
      rw [← factory.fst_build type fields] at longer
      rw [factory.build_wire type fields (by omega), version]
  | gapFill factory msgSeqNum newSeqNo version =>
      have longer := (factory.building_gapFill msgSeqNum newSeqNo).length_le
      rw [← factory.fst_sequenceResetGapFill msgSeqNum newSeqNo] at longer
      rw [factory.sequenceResetGapFill_wire msgSeqNum newSeqNo (by omega), version]
  | regenerated factory built resendable version sameLength off ih =>
      have earlier := ih resendable.wire_lt
      subst earlier
      exact (regenerateMessage_resent factory resendable version sameLength off).1

theorem wellFormed_resentFields {newTime : Bytes} (resendable : Resendable wire body time)
    (now_ne_nil : newTime ≠ []) (soh_now : soh ∉ newTime) :
    ∀ field ∈ resentFields time newTime body, field.WellFormed := by
  have timeFormed : Field.WellFormed ⟨52, time⟩ := by
    rcases resendable.timed with ⟨before, after, split, _⟩
    exact resendable.wellFormed _ (by simp [split])
  intro field mem
  rcases mem_setValue mem with rfl | ⟨mem, _⟩
  · exact ⟨by norm_num, now_ne_nil, soh_now⟩
  rcases mem_setOrAppend mem with rfl | ⟨mem, _⟩
  · exact ⟨by norm_num, timeFormed.value_ne_nil, timeFormed.soh_not_mem⟩
  rcases mem_setOrAppend mem with rfl | ⟨mem, _⟩
  · exact ⟨by norm_num, by decide, by decide⟩
  · exact resendable.wellFormed field mem

/-- Everything else is as it was. -/
theorem filter_resentFields (origTime newTime : Bytes) (body : List Field) :
    (resentFields origTime newTime body).filter (·.tag ∉ [52, 43, 122]) =
      body.filter (·.tag ∉ [52, 43, 122]) := by
  rw [resentFields, filter_setValue (by simp), filter_setOrAppend (by simp),
    filter_setOrAppend (by simp)]

/-- A message that is sent again is read as the message it was, but for the times and the flag. -/
theorem regenerateMessage_read_back (factory : MessageFactory) (built : Built wire body)
    (resendable : Resendable wire body time) (version : factory.params.fixVersion = fix44)
    (sameLength : factory.clock.nowFix.length = time.length) (off : ℕ) :
    let regenerated := (factory.regenerateMessage wire (createMessageIndex wire off)).1
    let resent := resentFields time factory.clock.nowFix body
    Parser.parse wire = (parsedFields body, []) ∧
      Parser.parse regenerated = (parsedFields resent, []) ∧ regenerated = wireOf fix44 resent ∧
      resent.filter (·.tag ∉ [52, 43, 122]) = body.filter (·.tag ∉ [52, 43, 122]) ∧
      factory.RegenerateAsserts wire (createMessageIndex wire off) := by
  have wireEq := built.wire_eq resendable.wire_lt
  subst wireEq
  rcases regenerateMessage_resent factory resendable version sameLength off with ⟨resent, asserts⟩
  refine ⟨parse_wireOf resendable.wellFormed, ?_, resent, filter_resentFields _ _ _, asserts⟩
  rw [resent]
  exact parse_wireOf (wellFormed_resentFields resendable (factory.clock.times_ne_nil _)
    (factory.clock.soh_not_mem_times _))

/-- An order that a session with the default parameters sends. -/
def orderFields : List Field := (fresh {} .standard).bodyOf (ascii "D") [⟨11, ascii "order"⟩]

theorem resendable_order :
    Resendable ((fresh {} .standard).build (ascii "D") [⟨11, ascii "order"⟩]).1 orderFields
      (ascii "Now") where
  wellFormed := by
    intro field mem
    rcases List.mem_append.mp mem with header | order
    · exact wellFormed_headerFields (by decide) (by decide) (by decide) (by decide) (by decide)
        (by decide) (Clock.times_ne_nil _ _) (Clock.soh_not_mem_times _ _) field header
    · rw [List.mem_singleton.mp order]
      exact ⟨by norm_num, by decide, by decide⟩
  unframed := by decide
  timed := ⟨[⟨35, ascii "D"⟩, ⟨34, ascii "1"⟩, ⟨49, ascii "test_sender"⟩,
    ⟨56, ascii "test_target"⟩], [⟨11, ascii "order"⟩], by decide, by decide⟩
  dup_once := by decide
  dup_length := by decide
  orig_once := by decide
  orig_length := by decide
  wire_lt := by decide +kernel
  time_lt := by decide

theorem regenerateMessage_read_back_order :
    Parser.parse ((fresh {} .standard).regenerateMessage
        ((fresh {} .standard).build (ascii "D") [⟨11, ascii "order"⟩]).1
        (createMessageIndex ((fresh {} .standard).build (ascii "D") [⟨11, ascii "order"⟩]).1 0)).1 =
      (parsedFields (resentFields (ascii "Now") (ascii "Now") orderFields), []) :=
  (regenerateMessage_read_back (fresh {} .standard) (.build (fresh {} .standard) (ascii "D") _ rfl)
    resendable_order rfl rfl 0).2.1

/-- A tag of eight digits can be written, but not read. -/
theorem regenerateMessage_longTag :
    ((fresh {} .standard).fromApp [⟨12345678, ascii "x"⟩] (ascii "D")).1.length < 2 ^ 31 ∧
      (Parser.parse ((fresh {} .standard).regenerateMessage
        ((fresh {} .standard).fromApp [⟨12345678, ascii "x"⟩] (ascii "D")).1
        (createMessageIndex ((fresh {} .standard).fromApp [⟨12345678, ascii "x"⟩]
          (ascii "D")).1 0)).1).2 ≠ [] := by
  decide +kernel

end Built

end MessageFactory

end FixEngine
