import FixEngine.Outbound.Entries

/-!
# The edits of a resend

`regenerate_message` edits the copy of a stored body in place where the index entry has patch points
and appends the fields for which it has none. The copy lies at another place than the body in the
wire, but no edit changes a length, so a patch point is found at the same distance from the start of
the body at every step.
-/

namespace FixEngine

namespace FactoryScratch

variable {scratch : FactoryScratch} {front before old after text : Bytes}

/-- An edit replaces text by text of the same length. -/
theorem Holds.editWindow (holds : scratch.Holds (before ++ (old ++ after)))
    (length_eq : text.length = old.length) :
    (scratch.editWindow before.length old.length text).Holds (before ++ (text ++ after)) := by
  have cells : scratch.buffer = before ++ (old ++ (after ++
      scratch.buffer.drop (before ++ (old ++ after)).length)) := by
    have whole := List.take_append_drop (before ++ (old ++ after)).length scratch.buffer
    rw [holds.take_eq] at whole
    simpa only [List.append_assoc] using whole.symm
  generalize scratch.buffer.drop (before ++ (old ++ after)).length = unused at cells
  have written : (scratch.editWindow before.length old.length text).buffer =
      before ++ (text ++ (after ++ unused)) := by
    have copied : text.take old.length = text := by rw [← length_eq, List.take_length]
    have beyond : scratch.buffer.drop (before.length + text.length) = after ++ unused := by
      rw [cells, ← List.append_assoc, length_eq, ← List.length_append, List.drop_left]
    simp only [FactoryScratch.editWindow, FixEngine.memcpy, copied, beyond]
    rw [cells, List.take_left, List.append_assoc]
  refine ⟨?_, ?_⟩
  · rw [FactoryScratch.editWindow, holds.position_eq]
    simp [length_eq]
  · have split : before ++ (text ++ (after ++ unused)) =
        (before ++ (text ++ after)) ++ unused := by
      simp
    rw [written, split, List.take_left]

theorem Pending.editWindow (pending : scratch.Pending front (before ++ (old ++ after)))
    (length_eq : text.length = old.length) :
    (scratch.editWindow (front.length + 11 + before.length) old.length text).Pending front
      (before ++ (text ++ after)) := by
  have whole : front ++ (List.replicate 10 48 ++ soh :: (before ++ (old ++ after))) =
      (front ++ (List.replicate 10 48 ++ soh :: before)) ++ (old ++ after) := by simp
  have place : (front ++ (List.replicate 10 48 ++ soh :: before)).length =
      front.length + 11 + before.length := by
    simp
    omega
  have holds := pending.holds
  rw [whole] at holds
  have edited := holds.editWindow length_eq
  rw [place] at edited
  refine ⟨?_, pending.offset_eq, pending.digits_eq⟩
  simpa using edited

theorem Pending.position_eq {body : Bytes} (pending : scratch.Pending front body) :
    scratch.position = front.length + 11 + body.length := by
  rw [pending.holds.position_eq]
  simp
  omega

end FactoryScratch

/-- Fields with the value of a tag replaced. -/
def setValue (tag : ℕ) (value : Bytes) (fields : List Field) : List Field :=
  fields.map fun field => if field.tag = tag then ⟨tag, value⟩ else field

/-- The value of a tag replaced, or a field appended when there is none. -/
def setOrAppend (tag : ℕ) (value : Bytes) (fields : List Field) : List Field :=
  if ∃ field ∈ fields, field.tag = tag then setValue tag value fields else fields ++ [⟨tag, value⟩]

/-- The fields between BodyLength and CheckSum of a message that is sent again. -/
def resentFields (origTime newTime : Bytes) (body : List Field) : List Field :=
  setValue 52 newTime (setOrAppend 122 origTime (setOrAppend 43 (ascii "Y") body))

section Values

variable {tag other : ℕ} {value : Bytes} {fields before after : List Field} {field : Field}

theorem setValue_of_absent (absent : ∀ field ∈ fields, field.tag ≠ tag) :
    setValue tag value fields = fields := by
  rw [setValue]
  conv_rhs => rw [← List.map_id fields]
  apply List.map_congr_left
  intro field mem
  simp [absent field mem]

theorem setValue_split (others : ∀ field ∈ before ++ after, field.tag ≠ tag) (old : Bytes) :
    setValue tag value (before ++ ⟨tag, old⟩ :: after) = before ++ ⟨tag, value⟩ :: after := by
  have front := @setValue_of_absent tag value before fun field mem =>
    others field (List.mem_append_left _ mem)
  have rear := @setValue_of_absent tag value after fun field mem =>
    others field (List.mem_append_right _ mem)
  simp only [setValue] at front rear
  simp [setValue, front, rear]

/-- A value of the same length leaves the other fields where they are. -/
theorem length_fieldsText_setValue
    (sameLength : ∀ field ∈ fields, field.tag = tag → field.value.length = value.length) :
    (fieldsText (setValue tag value fields)).length = (fieldsText fields).length := by
  induction fields with
  | nil => rfl
  | cons first rest ih =>
      have later := ih fun field mem => sameLength field (List.mem_cons_of_mem _ mem)
      have here : (fieldText (if first.tag = tag then ⟨tag, value⟩ else first)).length =
          (fieldText first).length := by
        split
        · next same =>
            rw [length_fieldText, length_fieldText, same,
              sameLength first (List.mem_cons_self ..) same]
        · rfl
      simp only [setValue, List.map_cons, fieldsText_cons, List.length_append] at later ⊢
      rw [here, later]

theorem length_setOrAppend_le
    (sameLength : ∀ field ∈ fields, field.tag = tag → field.value.length = value.length) :
    (fieldsText (setOrAppend tag value fields)).length ≤
      (fieldsText fields).length + (fieldText ⟨tag, value⟩).length := by
  rw [setOrAppend]
  split
  · rw [length_fieldsText_setValue sameLength]
    omega
  · simp

theorem le_length_setOrAppend
    (sameLength : ∀ field ∈ fields, field.tag = tag → field.value.length = value.length) :
    (fieldsText fields).length ≤ (fieldsText (setOrAppend tag value fields)).length := by
  rw [setOrAppend]
  split
  · rw [length_fieldsText_setValue sameLength]
  · simp

theorem setOrAppend_of_absent (absent : ∀ field ∈ fields, field.tag ≠ tag) :
    setOrAppend tag value fields = fields ++ [⟨tag, value⟩] := by
  rw [setOrAppend, if_neg]
  rintro ⟨field, mem, same⟩
  exact absent field mem same

theorem mem_setValue (mem : field ∈ setValue tag value fields) :
    field = ⟨tag, value⟩ ∨ (field ∈ fields ∧ field.tag ≠ tag) := by
  rw [setValue, List.mem_map] at mem
  rcases mem with ⟨old, inFields, rfl⟩
  by_cases same : old.tag = tag
  · exact .inl (if_pos same)
  · right
    rw [if_neg same]
    exact ⟨inFields, same⟩

theorem mem_setOrAppend (mem : field ∈ setOrAppend tag value fields) :
    field = ⟨tag, value⟩ ∨ (field ∈ fields ∧ field.tag ≠ tag) := by
  rw [setOrAppend] at mem
  split at mem
  · exact mem_setValue mem
  · next absent =>
      rcases List.mem_append.mp mem with inFields | new
      · exact .inr ⟨inFields, fun same => absent ⟨field, inFields, same⟩⟩
      · exact .inl (List.mem_singleton.mp new)

theorem Only.countP_eq (only : Only fields tag value) :
    fields.countP (·.tag = tag) = 1 := by
  rcases only with ⟨before, after, split, others⟩
  have none : (before ++ after).countP (·.tag = tag) = 0 := by
    rw [List.countP_eq_zero]
    intro field mem same
    exact others field mem (by simpa using same)
  rw [List.countP_append] at none
  rw [split, List.countP_append, List.countP_cons]
  simp only [decide_true, if_true]
  omega

theorem Only.eq_of_mem (only : Only fields tag value)
    (mem : field ∈ fields) (same : field.tag = tag) : field = ⟨tag, value⟩ := by
  rcases only with ⟨before, after, split, others⟩
  rw [split] at mem
  rcases List.mem_append.mp mem with inFront | inRest
  · exact absurd same (others field (List.mem_append_left _ inFront))
  rcases List.mem_cons.mp inRest with rfl | inRear
  · rfl
  · exact absurd same (others field (List.mem_append_right _ inRear))

section Filter

variable {keep : Field → Bool}

theorem filter_setValue (dropped : ∀ value, keep ⟨tag, value⟩ = false) :
    (setValue tag value fields).filter keep = fields.filter keep := by
  induction fields with
  | nil => rfl
  | cons first rest ih =>
      simp only [setValue, List.map_cons] at ih ⊢
      by_cases same : first.tag = tag
      · have gone : keep first = false := by
          rw [← dropped first.value, ← same]
        simp [same, dropped, gone, ih]
      · simp [same, ih, List.filter_cons]

theorem filter_setOrAppend (dropped : ∀ value, keep ⟨tag, value⟩ = false) :
    (setOrAppend tag value fields).filter keep = fields.filter keep := by
  rw [setOrAppend]
  split
  · exact filter_setValue dropped
  · simp [dropped]

end Filter

end Values

namespace MsgIndex

/-- The patch point of a tag in a body that begins at an offset: the only field with the tag, if
there is one. -/
def Locates (index : MsgIndex) (offset : ℕ) (body : List Field) (tag : ℕ) : Prop :=
  ((∀ field ∈ body, field.tag ≠ tag) ∧ (index.point tag).1 = -1) ∨
    ∃ before value after, body = before ++ ⟨tag, value⟩ :: after ∧
      (∀ field ∈ before ++ after, field.tag ≠ tag) ∧
      (index.point tag).1 =
        ((offset + ((fieldsText before).length + (decimal tag).length + 1) : ℕ) : ℤ) ∧
      (index.point tag).2 = value.length

variable {index : MsgIndex} {offset tag other : ℕ} {value : Bytes} {body : List Field}

@[simp]
theorem point_dup (index : MsgIndex) : index.point 43 = (index.off43, index.len43) := rfl

@[simp]
theorem point_orig (index : MsgIndex) : index.point 122 = (index.off122, index.len122) := rfl

@[simp]
theorem point_time (index : MsgIndex) : index.point 52 = (index.off52, index.len52) := rfl

/-- The only field with a tag lies where the entry says. -/
theorem Locates.of_only (locates : index.Locates offset body tag) (only : Only body tag value) :
    ∃ before after, body = before ++ ⟨tag, value⟩ :: after ∧
      (∀ field ∈ before ++ after, field.tag ≠ tag) ∧
      (index.point tag).1 =
        ((offset + ((fieldsText before).length + (decimal tag).length + 1) : ℕ) : ℤ) ∧
      (index.point tag).2 = value.length := by
  rcases locates with ⟨absent, _⟩ | ⟨before, found, after, split, others, offEq, lenEq⟩
  · rcases only with ⟨before, after, split, _⟩
    exact absurd rfl (absent ⟨tag, value⟩ (by simp [split]))
  · have same := only.eq_of_mem (show (⟨tag, found⟩ : Field) ∈ body by simp [split]) rfl
    cases same
    exact ⟨before, after, split, others, offEq, lenEq⟩

/-- Setting a value of the same length moves no other patch point. -/
theorem Locates.setValue (locates : index.Locates offset body tag) (differs : other ≠ tag)
    (sameLength : ∀ field ∈ body, field.tag = other → field.value.length = value.length) :
    index.Locates offset (setValue other value body) tag := by
  have keeps : ∀ {fields : List Field}, (∀ field ∈ fields, field.tag ≠ tag) →
      ∀ field ∈ FixEngine.setValue other value fields, field.tag ≠ tag := by
    intro fields absent field mem
    rcases mem_setValue mem with rfl | ⟨old, _⟩
    · exact differs
    · exact absent field old
  rcases locates with ⟨absent, none⟩ | ⟨before, old, after, split, others, offEq, lenEq⟩
  · exact .inl ⟨keeps absent, none⟩
  · right
    refine ⟨FixEngine.setValue other value before, old, FixEngine.setValue other value after, ?_, ?_,
      ?_, lenEq⟩
    · rw [split]
      simp [FixEngine.setValue, Ne.symm differs]
    · intro field mem
      apply keeps others field
      rw [FixEngine.setValue, List.map_append]
      exact mem
    · rw [offEq, length_fieldsText_setValue]
      intro field mem same
      exact sameLength field (by rw [split]; exact List.mem_append_left _ mem) same

theorem Locates.setOrAppend (locates : index.Locates offset body tag) (differs : other ≠ tag)
    (sameLength : ∀ field ∈ body, field.tag = other → field.value.length = value.length) :
    index.Locates offset (setOrAppend other value body) tag := by
  rw [FixEngine.setOrAppend]
  split
  · exact locates.setValue differs sameLength
  · rcases locates with ⟨absent, none⟩ | ⟨before, old, after, split, others, offEq, lenEq⟩
    · refine .inl ⟨?_, none⟩
      intro field mem
      rcases List.mem_append.mp mem with inBody | new
      · exact absent field inBody
      · rw [List.mem_singleton.mp new]
        exact differs
    · refine .inr ⟨before, old, after ++ [⟨other, value⟩], by rw [split]; simp, ?_, offEq, lenEq⟩
      intro field mem
      rw [← List.append_assoc] at mem
      rcases List.mem_append.mp mem with inOthers | new
      · exact others field inOthers
      · rw [List.mem_singleton.mp new]
        exact differs

end MsgIndex

namespace MessageFactory

section Parts

variable {body : List Field}

/-- The body starts after the body length. -/
theorem getMsgBodyOffset_wireOf (body : List Field) :
    getMsgBodyOffset (wireOf fix44 body) =
      (fieldsText [⟨8, fix44⟩, ⟨9, decimal (fieldsText body).length⟩]).length := by
  have begins : (57 : UInt8) ∉ fieldText ⟨8, fix44⟩ := by decide
  have shape : ∃ rest, wireOf fix44 body = fieldText ⟨8, fix44⟩ ++ (ascii "9=" ++
      (decimal (fieldsText body).length ++ soh :: rest)) := by
    refine ⟨fieldsText body ++ fieldText ⟨10, checksumText (byteSum (frontOf fix44 body))⟩, ?_⟩
    simp [wireOf, frontOf, fieldText, nine_eq]
  rcases shape with ⟨rest, wireEq⟩
  have found : find (ascii "9=") (wireOf fix44 body) = some (fieldText ⟨8, fix44⟩).length := by
    rw [wireEq, show ascii "9=" = [57, equalSign] by decide, find_append_of_not_mem begins,
      find_prefix]
    simp
  have noSoh : soh ∉ ascii "9=" ++ decimal (fieldsText body).length := by
    simp only [List.mem_append, not_or]
    exact ⟨by decide, soh_not_mem_bodyLength body⟩
  have widths : (ascii "9=").length = 2 ∧ (decimal 9).length = 1 := by decide
  rw [getMsgBodyOffset, found, Option.getD_some, wireEq, List.drop_left, ← List.append_assoc,
    cut_append rest noSoh]
  simp [fieldText, widths.1, widths.2]
  omega

/-- Up to its checksum, the rest of a message is its body. -/
theorem getMsgBody_wireOf (body : List Field) :
    getMsgBody (wireOf fix44 body) = fieldsText body := by
  have digits : ∀ b ∈ checksumText (byteSum (frontOf fix44 body)), isDigit b = true :=
    fun _ mem => isDigit_of_mem_checksumText mem
  have noEqual : equalSign ∉ checksumText (byteSum (frontOf fix44 body)) ++ [soh] := by
    simp [not_mem_of_digits digits (show isDigit equalSign = false by decide),
      show equalSign ≠ soh by decide]
  have last : rfind Parser.checksumKey (wireOf fix44 body) = some (frontOf fix44 body).length := by
    rw [wireOf, fieldText_checksum]
    exact rfind_checksumKey noEqual
  have front : frontOf fix44 body =
      fieldsText [⟨8, fix44⟩, ⟨9, decimal (fieldsText body).length⟩] ++ fieldsText body := by
    simp [frontOf]
  rw [getMsgBody, getMsgBodyOffset_wireOf, last, Option.getD_some, wireOf, front,
    List.append_assoc, List.drop_left, List.length_append, Nat.add_sub_cancel_left, List.take_left]

end Parts

/-- The patch point lies behind what was copied before it. -/
theorem rebase_eq {position offset place : ℕ} (small : position + place < word64) :
    rebase position ((offset + place : ℕ) : ℤ) offset = position + place := by
  have shifted : (position : ℤ) + ((offset + place : ℕ) : ℤ) - offset = ((position + place : ℕ) : ℤ) := by
    omega
  rw [rebase, shifted, ← Int.natCast_mod, Int.toNat_natCast, Nat.mod_eq_of_lt small]

section Edits

variable {factory : MessageFactory} {index : MsgIndex} {front value : Bytes} {offset tag : ℕ}
  {body before after : List Field}

/-- Writing over the only field with a tag. -/
theorem editWindow_field {scratch : FactoryScratch} {old : Bytes}
    (pending : scratch.Pending front (fieldsText (before ++ ⟨tag, old⟩ :: after)))
    (others : ∀ field ∈ before ++ after, field.tag ≠ tag) (sameLength : value.length = old.length) :
    let place := front.length + 11 + ((fieldsText before).length + (decimal tag).length + 1)
    (scratch.editWindow place old.length value).Pending front
        (fieldsText (setValue tag value (before ++ ⟨tag, old⟩ :: after))) ∧
      scratch.EditWindowAsserts place old.length value := by
  intro place
  have text : ∀ inside, fieldsText (before ++ ⟨tag, inside⟩ :: after) =
      (fieldsText before ++ (decimal tag ++ [equalSign])) ++ (inside ++ (soh :: fieldsText after)) := by
    intro inside
    simp [fieldText]
  have width : (fieldsText before ++ (decimal tag ++ [equalSign])).length =
      (fieldsText before).length + (decimal tag).length + 1 := by
    simp
    omega
  have position := pending.position_eq
  rw [text] at pending
  have edited := pending.editWindow sameLength
  rw [width, ← text] at edited
  rw [setValue_split others]
  refine ⟨edited, sameLength, ?_⟩
  rw [position, text, List.length_append, width, List.length_append]
  omega

/-- A patch sets the value of its tag, and stays within what was written. -/
theorem patch_pending (pending : factory.scratch.Pending front (fieldsText body))
    (locates : index.Locates offset body tag)
    (sameLength : ∀ field ∈ body, field.tag = tag → field.value.length = value.length)
    (small : front.length + 11 + (fieldsText body).length < word64) :
    (factory.patch (front.length + 11) offset tag (index.point tag).1 (index.point tag).2
        value).scratch.Pending front (fieldsText (setOrAppend tag value body)) ∧
      ((index.point tag).1 ≠ -1 → factory.scratch.EditWindowAsserts
        (rebase (front.length + 11) (index.point tag).1 offset) (index.point tag).2 value) := by
  rcases locates with ⟨absent, none⟩ | ⟨before, old, after, split, others, offEq, lenEq⟩
  · have noField : ¬∃ field ∈ body, field.tag = tag := fun ⟨field, mem, same⟩ =>
      absent field mem same
    rw [none, patch, if_pos rfl, setOrAppend, if_neg noField, fieldsText_append, fieldsText_cons,
      fieldsText_nil, List.append_nil]
    exact ⟨pending.addField _, fun somewhere => absurd rfl somewhere⟩
  · have isField : ∃ field ∈ body, field.tag = tag := ⟨⟨tag, old⟩, by simp [split], rfl⟩
    have place : rebase (front.length + 11) (index.point tag).1 offset =
        front.length + 11 + ((fieldsText before).length + (decimal tag).length + 1) := by
      rw [offEq]
      apply rebase_eq
      have whole := congrArg (fun fields => (fieldsText fields).length) split
      simp only [fieldsText_append, fieldsText_cons, List.length_append, length_fieldText] at whole
      omega
    have somewhere : (index.point tag).1 ≠ -1 := by
      rw [offEq]
      omega
    have same : value.length = old.length :=
      (sameLength ⟨tag, old⟩ (by simp [split]) rfl).symm
    rw [split] at pending
    have edited := editWindow_field pending others same
    rw [patch, if_neg somewhere, setOrAppend, if_pos isField, place, lenEq, split]
    exact ⟨edited.1, fun _ => edited.2⟩

end Edits

/-- The assertions of the edits that `regenerate_message` makes. -/
def RegenerateAsserts (factory : MessageFactory) (originalWire : Bytes) (index : MsgIndex) : Prop :=
  let begun := factory.addBegin
  let positionAfterBodyLength := begun.scratch.position
  let bodyOffset := getMsgBodyOffset originalWire
  let copied := { begun with scratch := begun.scratch.addString (getMsgBody originalWire) }
  let origTime := (originalWire.drop (index.off52 % word64).toNat).take index.len52
  let dup := copied.patch positionAfterBodyLength bodyOffset 43 index.off43 index.len43
    (ascii "Y")
  let timed := dup.patch positionAfterBodyLength bodyOffset 122 index.off122 index.len122 origTime
  (index.off43 ≠ -1 → copied.scratch.EditWindowAsserts
      (rebase positionAfterBodyLength index.off43 bodyOffset) index.len43 (ascii "Y")) ∧
    (index.off122 ≠ -1 → dup.scratch.EditWindowAsserts
      (rebase positionAfterBodyLength index.off122 bodyOffset) index.len122 origTime) ∧
    timed.scratch.EditWindowAsserts
      (rebase positionAfterBodyLength index.off52 bodyOffset) index.len52 timed.clock.nowFix

/-- The place where a body begins in its wire. -/
def bodyBegin (body : List Field) : ℕ :=
  (fieldsText [⟨8, fix44⟩, ⟨9, decimal (fieldsText body).length⟩]).length

theorem wireOf_eq (body : List Field) : wireOf fix44 body =
    fieldsText (⟨8, fix44⟩ :: ⟨9, decimal (fieldsText body).length⟩ :: body) ++
      fieldText ⟨10, checksumText (byteSum (frontOf fix44 body))⟩ := by
  simp [wireOf, frontOf]

section Located

variable {body : List Field} {time : Bytes} {index : MsgIndex}

/-- What the edits of a resend rest on: one SendingTime, values of the lengths that replace them,
and an entry that locates the fields. -/
structure Editable (index : MsgIndex) (body : List Field) (time : Bytes) : Prop where
  timed : Only body 52 time
  dup_length : ∀ field ∈ body, field.tag = 43 → field.value.length = 1
  orig_length : ∀ field ∈ body, field.tag = 122 → field.value.length = time.length
  dup : index.Locates (bodyBegin body) body 43
  orig : index.Locates (bodyBegin body) body 122
  time : index.Locates (bodyBegin body) body 52

theorem bodyBegin_lt (fits : (fieldsText body).length < 10 ^ 10) : bodyBegin body < 100 := by
  have width := length_decimal_le (by decide : 0 < 10) fits
  have fixed : (fieldText ⟨8, fix44⟩).length = 10 ∧ (decimal 9).length = 1 := by decide
  simp only [bodyBegin, fieldsText_cons, fieldsText_nil, List.length_append, fixed.1]
  simp [fieldText, fixed.2]
  omega

/-- The old time is read from the wire. -/
theorem Editable.origTime_eq (editable : Editable index body time)
    (fits : (fieldsText body).length < 10 ^ 10) :
    ((wireOf fix44 body).drop (index.off52 % word64).toNat).take index.len52 = time := by
  rcases editable.time.of_only editable.timed with ⟨before, after, split, _, offEq, lenEq⟩
  have begins := bodyBegin_lt fits
  have bodyText : fieldsText body = fieldsText before ++ (decimal 52 ++ equalSign :: (time ++
      soh :: fieldsText after)) := by
    rw [split]
    simp [fieldText]
  have text : wireOf fix44 body = (fieldsText [⟨8, fix44⟩, ⟨9, decimal (fieldsText body).length⟩] ++
      (fieldsText before ++ (decimal 52 ++ [equalSign]))) ++ (time ++ (soh :: fieldsText after ++
        fieldText ⟨10, checksumText (byteSum (frontOf fix44 body))⟩)) := by
    rw [wireOf_eq]
    simp [fieldText, bodyText]
  have width : (fieldsText [⟨8, fix44⟩, ⟨9, decimal (fieldsText body).length⟩] ++
      (fieldsText before ++ (decimal 52 ++ [equalSign]))).length =
        bodyBegin body + ((fieldsText before).length + (decimal 52).length + 1) := by
    rw [List.length_append, bodyBegin]
    simp only [List.length_append, List.length_singleton]
    omega
  have inside := congrArg List.length bodyText
  simp only [List.length_append, List.length_cons] at inside
  simp only [MsgIndex.point_time] at offEq lenEq
  have start : (index.off52 % word64).toNat =
      bodyBegin body + ((fieldsText before).length + (decimal 52).length + 1) := by
    rw [offEq, ← Int.natCast_mod, Int.toNat_natCast]
    apply Nat.mod_eq_of_lt
    simp only [word64]
    omega
  rw [start, lenEq, ← width, text, List.drop_left, List.take_left]

/-- Every value that is edited has the length of the new one. -/
theorem Editable.lengths (editable : Editable index body time) {newTime : Bytes}
    (sameLength : newTime.length = time.length) :
    (∀ field ∈ body, field.tag = 43 → field.value.length = (ascii "Y").length) ∧
      (∀ field ∈ setOrAppend 43 (ascii "Y") body, field.tag = 122 →
        field.value.length = time.length) ∧
      ∀ field ∈ setOrAppend 122 time (setOrAppend 43 (ascii "Y") body), field.tag = 52 →
        field.value.length = newTime.length := by
  refine ⟨fun field mem same => editable.dup_length field mem same, ?_, ?_⟩
  · intro field mem same
    rcases mem_setOrAppend mem with rfl | ⟨inBody, _⟩
    · cases same
    · exact editable.orig_length field inBody same
  · intro field mem same
    rcases mem_setOrAppend mem with rfl | ⟨inDup, _⟩
    · cases same
    rcases mem_setOrAppend inDup with rfl | ⟨inBody, _⟩
    · cases same
    rw [editable.timed.eq_of_mem inBody same]
    exact sameLength.symm

/-- With an entry that locates the fields, the three edits set the values of their tags, and each
replaces a value by one of its length. -/
theorem regenerateMessage_editable (factory : MessageFactory) (editable : Editable index body time)
    (version : factory.params.fixVersion = fix44)
    (sameLength : factory.clock.nowFix.length = time.length)
    (fits : (fieldsText (resentFields time factory.clock.nowFix body)).length < 10 ^ 10) :
    (factory.regenerateMessage (wireOf fix44 body) index).1 =
        wireOf fix44 (resentFields time factory.clock.nowFix body) ∧
      factory.RegenerateAsserts (wireOf fix44 body) index := by
  rcases editable.lengths sameLength with ⟨dupLengths, origLengths, timeLengths⟩
  have dupLe := le_length_setOrAppend dupLengths
  have origLe := le_length_setOrAppend origLengths
  have timeEq := length_fieldsText_setValue timeLengths
  rw [← resentFields] at timeEq
  have origTime := editable.origTime_eq (by omega)
  set front := fieldText ⟨8, factory.params.fixVersion⟩ ++ (decimal 9 ++ [equalSign]) with frontDef
  have frontLength : front.length = 12 := by
    rw [frontDef, version]
    decide
  have begun : factory.addBegin.scratch.Pending front [] := factory.building_addBegin
  have position : factory.addBegin.scratch.position = front.length + 11 := begun.position_eq
  have copied := begun.addString (fieldsText body)
  rw [List.nil_append] at copied
  have dupStep := @patch_pending { factory.addBegin with
    scratch := factory.addBegin.scratch.addString (fieldsText body) } index front (ascii "Y")
      (bodyBegin body) 43 body copied editable.dup dupLengths (by simp only [word64]; omega)
  have origMoved := editable.orig.setOrAppend (by decide : 43 ≠ 122) dupLengths
  have origStep := patch_pending dupStep.1 origMoved origLengths (by simp only [word64]; omega)
  have timeMoved := (editable.time.setOrAppend (by decide : 43 ≠ 52) dupLengths).setOrAppend
    (by decide : 122 ≠ 52) origLengths
  have somewhere : (index.point 52).1 ≠ -1 := by
    rcases editable.time.of_only editable.timed with ⟨_, _, _, _, offEq, _⟩
    rw [offEq]
    omega
  rcases timeMoved with ⟨_, none⟩ | ⟨before, value, after, split, others, offEq, lenEq⟩
  · exact absurd none somewhere
  have valueLength : factory.clock.nowFix.length = value.length :=
    (timeLengths ⟨52, value⟩ (by rw [split]; simp) rfl).symm
  have whole := congrArg (fun fields => (fieldsText fields).length) split
  simp only [fieldsText_append, fieldsText_cons, List.length_append, length_fieldText] at whole
  have place : rebase (front.length + 11) (index.point 52).1 (bodyBegin body) =
      front.length + 11 + ((fieldsText before).length + (decimal 52).length + 1) := by
    rw [offEq]
    apply rebase_eq
    simp only [word64]
    omega
  have pending := origStep.1
  rw [split] at pending
  have stamped := editWindow_field pending others valueLength
  rw [← lenEq, ← place, ← split, ← resentFields] at stamped
  have offset : getMsgBodyOffset (wireOf fix44 body) = bodyBegin body := getMsgBodyOffset_wireOf body
  simp only [MsgIndex.point_dup, MsgIndex.point_orig, MsgIndex.point_time, params_addBegin,
    seqProvider_addBegin, clock_addBegin] at dupStep origStep stamped
  constructor
  · simp only [regenerateMessage, position, offset, getMsgBody_wireOf, origTime, params_addBegin,
      seqProvider_addBegin, clock_addBegin, clock_patch, params_patch]
    have complete := fun provider clock =>
      @Building.stampTrailer ⟨_, factory.params, provider, clock⟩
        (resentFields time factory.clock.nowFix body) stamped.1 fits
    simp only [version] at complete
    exact complete _ _
  · simp only [RegenerateAsserts, position, offset, getMsgBody_wireOf, origTime, params_addBegin,
      seqProvider_addBegin, clock_addBegin, clock_patch]
    exact ⟨dupStep.2, origStep.2, stamped.2⟩

end Located

end MessageFactory

end FixEngine
