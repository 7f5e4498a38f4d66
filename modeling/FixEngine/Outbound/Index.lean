import FixEngine.Wire.Encode

/-!
# The index entry of a message

`create_message_index` scans a wire again to find the number, the type and the patch points.
On the wire form of a message whose values are free of delimiters the scan goes over exactly the
fields of the message, up to its checksum.
-/

namespace FixEngine

namespace MsgIndex

/-- What the scan records for a list of fields that starts at a position. -/
def recordFields : ℕ → List Field → MsgIndex → MsgIndex
  | _, [], index => index
  | pos, field :: rest, index =>
      recordFields (pos + (fieldText field).length) rest
        (index.record (decimal field.tag) field.value (pos + (decimal field.tag).length + 1))

section Record

variable {index : MsgIndex} {tag pos : ℕ} {value : Bytes}

theorem decimal_eq_iff {n : ℕ} {text : Bytes} (text_eq : text = decimal n) (tag : ℕ) :
    decimal tag = text ↔ tag = n := by
  rw [text_eq]
  exact decimal_injective.eq_iff

/-- The comparisons of tag texts are comparisons of tags. -/
theorem record_decimal :
    index.record (decimal tag) value pos =
      if tag = 34 then
        { index with
          off34 := toInt32 pos
          len34 := value.length % word16
          seq := (fromChars 32 value).value.getD 0 }
      else if tag = 52 then { index with off52 := toInt32 pos, len52 := value.length % word16 }
      else if tag = 43 then { index with off43 := toInt32 pos, len43 := value.length % word16 }
      else if tag = 122 then { index with off122 := toInt32 pos, len122 := value.length % word16 }
      else if tag = 35 then { index with msgType := value.take 2 }
      else index := by
  simp only [record, decimal_eq_iff (show ascii "34" = decimal 34 by decide),
    decimal_eq_iff (show ascii "52" = decimal 52 by decide),
    decimal_eq_iff (show ascii "43" = decimal 43 by decide),
    decimal_eq_iff (show ascii "122" = decimal 122 by decide),
    decimal_eq_iff (show ascii "35" = decimal 35 by decide)]

theorem seq_record (notSeq : tag ≠ 34) :
    (index.record (decimal tag) value pos).seq = index.seq := by
  rw [record_decimal, if_neg notSeq]
  split_ifs <;> rfl

theorem msgType_record (notType : tag ≠ 35) :
    (index.record (decimal tag) value pos).msgType = index.msgType := by
  rw [record_decimal]
  split_ifs <;> rfl

theorem seq_recordFields {fields : List Field} (notSeq : ∀ field ∈ fields, field.tag ≠ 34) :
    (recordFields pos fields index).seq = index.seq := by
  induction fields generalizing pos index with
  | nil => rfl
  | cons first rest ih =>
      rw [recordFields, ih fun field mem => notSeq field (List.mem_cons_of_mem _ mem)]
      exact seq_record (notSeq first (List.mem_cons_self ..))

theorem msgType_recordFields {fields : List Field} (notType : ∀ field ∈ fields, field.tag ≠ 35) :
    (recordFields pos fields index).msgType = index.msgType := by
  induction fields generalizing pos index with
  | nil => rfl
  | cons first rest ih =>
      rw [recordFields, ih fun field mem => notType field (List.mem_cons_of_mem _ mem)]
      exact msgType_record (notType first (List.mem_cons_self ..))

theorem recordFields_append (front rest : List Field) :
    recordFields pos (front ++ rest) index =
      recordFields (pos + (fieldsText front).length) rest (recordFields pos front index) := by
  induction front generalizing pos index with
  | nil => simp [recordFields]
  | cons first front ih => simp [recordFields, ih, Nat.add_assoc]

end Record

end MsgIndex

section Scan

variable {index : MsgIndex} {pos rounds : ℕ}

theorem equalSign_not_mem_decimal (n : ℕ) : equalSign ∉ decimal n :=
  not_mem_of_digits (fun _ mem => isDigit_of_mem_decimal mem) (by decide)

theorem fieldText_ne_nil (field : Field) : fieldText field ≠ [] := by
  simp [fieldText]

/-- One round of the scan reads one field. -/
theorem indexFields_cons {field : Field} (noDelimiter : soh ∉ field.value) (rest : Bytes) :
    indexFields (rounds + 1) pos (fieldText field ++ rest) index =
      if field.tag = 10 then index
      else
        indexFields rounds (pos + (fieldText field).length) rest
          (index.record (decimal field.tag) field.value (pos + (decimal field.tag).length + 1)) := by
  have text : fieldText field ++ rest =
      decimal field.tag ++ equalSign :: (field.value ++ soh :: rest) := by
    simp [fieldText]
  have nonempty : fieldText field ++ rest ≠ [] := by
    intro empty
    exact fieldText_ne_nil field (List.append_eq_nil_iff.mp empty).1
  have width : (fieldText field).length =
      (decimal field.tag).length + 1 + field.value.length + 1 := by
    simp [fieldText]
    omega
  rw [indexFields, if_neg nonempty, text, cut_append _ (equalSign_not_mem_decimal _)]
  simp only [cut_append _ noDelimiter,
    MsgIndex.decimal_eq_iff (show ascii "10" = decimal 10 by decide), width]
  congr 2
  omega

/-- The scan goes over the fields before the first one with the checksum's tag. -/
theorem indexFields_eq {fields : List Field} (noDelimiter : ∀ field ∈ fields, soh ∉ field.value)
    {last : Field} (lastTag : last.tag = 10) (noDelimiterLast : soh ∉ last.value) (rest : Bytes)
    (enough : fields.length < rounds) :
    indexFields rounds pos (fieldsText fields ++ (fieldText last ++ rest)) index =
      MsgIndex.recordFields pos (fields.takeWhile (·.tag ≠ 10)) index := by
  induction fields generalizing rounds pos index with
  | nil =>
      rcases Nat.exists_eq_succ_of_ne_zero (Nat.ne_of_gt enough) with ⟨rounds, rfl⟩
      rw [fieldsText_nil, List.nil_append, indexFields_cons noDelimiterLast, if_pos lastTag]
      rfl
  | cons first fields ih =>
      rcases Nat.exists_eq_succ_of_ne_zero (Nat.ne_of_gt (Nat.lt_of_le_of_lt (Nat.zero_le _) enough))
        with ⟨rounds, rfl⟩
      rw [fieldsText_cons, List.append_assoc,
        indexFields_cons (noDelimiter first (List.mem_cons_self ..))]
      by_cases ten : first.tag = 10
      · simp [ten, MsgIndex.recordFields]
      · rw [if_neg ten, ih fun field mem => noDelimiter field (List.mem_cons_of_mem _ mem)]
        · simp [ten, MsgIndex.recordFields]
        · simpa using enough

theorem length_fieldsText_ge (fields : List Field) : fields.length ≤ (fieldsText fields).length := by
  induction fields with
  | nil => simp
  | cons first rest ih =>
      have := List.length_pos_iff.mpr (fieldText_ne_nil first)
      simp only [fieldsText_cons, List.length_append, List.length_cons]
      omega

theorem soh_not_mem_checksumText (sum : ℕ) : soh ∉ checksumText sum :=
  not_mem_of_digits (fun _ mem => isDigit_of_mem_checksumText mem) (by decide)

/-- The begin fields and the body, as far as the scan goes. -/
def scannedFields (version : Bytes) (body : List Field) : List Field :=
  ⟨8, version⟩ :: ⟨9, decimal (fieldsText body).length⟩ :: body.takeWhile (·.tag ≠ 10)

theorem createMessageIndex_wireOf {version : Bytes} {body : List Field} (noVersion : soh ∉ version)
    (noBody : ∀ field ∈ body, soh ∉ field.value) (off : ℕ) :
    createMessageIndex (wireOf version body) off =
      MsgIndex.recordFields 0 (scannedFields version body)
        { off := off % word32, len := (wireOf version body).length % word32 } := by
  have shape : wireOf version body =
      fieldsText (⟨8, version⟩ :: ⟨9, decimal (fieldsText body).length⟩ :: body) ++
        (fieldText ⟨10, checksumText (byteSum (frontOf version body))⟩ ++ []) := by
    simp [wireOf, frontOf]
  have count : (⟨8, version⟩ :: ⟨9, decimal (fieldsText body).length⟩ :: body : List Field).length <
      (wireOf version body).length := by
    have fewer := length_fieldsText_ge
      (⟨8, version⟩ :: ⟨9, decimal (fieldsText body).length⟩ :: body)
    have positive := List.length_pos_iff.mpr
      (fieldText_ne_nil ⟨10, checksumText (byteSum (frontOf version body))⟩)
    rw [shape, List.append_nil, List.length_append]
    omega
  have noDelimiter : ∀ field ∈ (⟨8, version⟩ :: ⟨9, decimal (fieldsText body).length⟩ :: body :
      List Field), soh ∉ field.value := by
    intro field mem
    simp only [List.mem_cons] at mem
    rcases mem with rfl | rfl | mem
    · exact noVersion
    · exact soh_not_mem_bodyLength body
    · exact noBody field mem
  have scanned := @indexFields_eq { off := off % word32, len := (wireOf version body).length % word32 }
    0 _ _ noDelimiter ⟨10, checksumText (byteSum (frontOf version body))⟩ rfl
    (soh_not_mem_checksumText _) [] count
  rw [← shape] at scanned
  rw [createMessageIndex, scanned]
  simp [scannedFields]

end Scan

section Stamped

variable {version type time : Bytes} {params : SessionParameters} {number : ℕ}
  {fields : List Field}

/-- Fields that can follow a stamped header without disturbing its number and type. -/
structure PlainFields (fields : List Field) : Prop where
  noDelimiter : ∀ field ∈ fields, soh ∉ field.value
  notSeq : ∀ field ∈ fields, field.tag ≠ 34
  notType : ∀ field ∈ fields, field.tag ≠ 35

/-- Session parameters without delimiters. -/
structure SessionParameters.Plain (params : SessionParameters) : Prop where
  version : soh ∉ params.fixVersion
  sender : soh ∉ params.senderCompId
  target : soh ∉ params.targetCompId

/-- Session parameters that make a readable header. -/
structure SessionParameters.Presentable (params : SessionParameters) : Prop where
  version : params.fixVersion = fix44
  plain : params.Plain
  sender_ne_nil : params.senderCompId ≠ []
  target_ne_nil : params.targetCompId ≠ []

theorem toInt32_eq {n : ℕ} (lt : n < 2 ^ 31) : toInt32 n = n := by
  rw [toInt32, Int.bmod_eq_of_le]
  · simp only [word32]
    omega
  · simp only [word32]
    omega

theorem toInt64_eq {n : ℕ} (lt : n < 2 ^ 63) : toInt64 n = n := by
  rw [toInt64, Int.bmod_eq_of_le]
  · simp only [word64]
    omega
  · simp only [word64]
    omega

@[simp]
theorem soh_not_mem_toChars (n : ℤ) : soh ∉ toChars n :=
  not_mem_toChars (by decide) (by decide)

theorem length_toChars_le {n : ℤ} (low : -10 ^ 19 < n) (high : n < 10 ^ 19) :
    (toChars n).length ≤ 20 := by
  cases n with
  | ofNat n =>
      rw [Int.ofNat_eq_natCast] at high
      exact (length_decimal_le (by decide : 0 < 19) (by omega)).trans (by decide)
  | negSucc n =>
      rw [Int.negSucc_eq] at low
      have := length_decimal_le (by decide : 0 < 19) (show n + 1 < 10 ^ 19 by omega)
      simp only [toChars, List.length_cons]
      omega

theorem length_toChars_toInt64_le (n : ℕ) : (toChars (toInt64 n)).length ≤ 20 := by
  have low : -((word64 : ℤ) / 2) ≤ toInt64 n := Int.le_bmod (by decide)
  have high : toInt64 n < ((word64 : ℤ) + 1) / 2 := Int.bmod_lt (by decide)
  have size : (word64 : ℤ) = 2 ^ 64 := by decide
  rw [size] at low high
  exact length_toChars_le (by omega) (by omega)

theorem length_toChars_toInt32_le (n : ℕ) : (toChars (toInt32 n)).length ≤ 20 := by
  have low : -((word32 : ℤ) / 2) ≤ toInt32 n := Int.le_bmod (by decide)
  have high : toInt32 n < ((word32 : ℤ) + 1) / 2 := Int.bmod_lt (by decide)
  have size : (word32 : ℤ) = 2 ^ 32 := by decide
  rw [size] at low high
  exact length_toChars_le (by omega) (by omega)

/-- A number that fits is printed in decimal. -/
theorem toChars_toInt64 {n : ℕ} (lt : n < 2 ^ 63) : toChars (toInt64 n) = decimal n := by
  rw [toInt64_eq lt, toChars_natCast]

/-- A stamped body fits into the placeholder of its length. -/
theorem length_stamped_lt (sender_lt : params.senderCompId.length < 10 ^ 9)
    (target_lt : params.targetCompId.length < 10 ^ 9) (short : type.length ≤ 8)
    (time_lt : time.length < 10 ^ 9) (small : (fieldsText fields).length < 6 * 10 ^ 9 + 10 ^ 6) :
    (fieldsText (MessageFactory.headerFields params type number time ++ fields)).length <
      10 ^ 10 := by
  have numberWidth := length_toChars_toInt64_le number
  have widths : ∀ tag ∈ [35, 34, 49, 56, 52], (decimal tag).length = 2 := by decide
  rw [MessageFactory.headerFields]
  generalize toChars (toInt64 number) = numberText at numberWidth
  simp only [fieldsText_append, fieldsText_cons, fieldsText_nil, List.append_nil,
    List.length_append, length_fieldText, widths 35 (by decide), widths 34 (by decide),
    widths 49 (by decide), widths 56 (by decide), widths 52 (by decide)]
  omega

/-- The entry of a stamped message has the message's number and the start of its type. -/
theorem index_stamped (plainParams : params.Plain) (noType : soh ∉ type) (noTime : soh ∉ time)
    (plain : PlainFields fields) (lt : number < word32) (off : ℕ) :
    let wire := wireOf params.fixVersion
      (MessageFactory.headerFields params type number time ++ fields)
    (createMessageIndex wire off).seq = number ∧
      (createMessageIndex wire off).msgType = type.take 2 := by
  intro wire
  have small : number < 2 ^ 63 := by simp only [word32] at lt; omega
  have numberText : toChars (toInt64 number) = decimal number := toChars_toInt64 small
  have noBody : ∀ field ∈ MessageFactory.headerFields params type number time ++ fields,
      soh ∉ field.value := by
    intro field mem
    simp only [MessageFactory.headerFields, List.cons_append, List.nil_append, List.mem_cons] at mem
    rcases mem with rfl | rfl | rfl | rfl | rfl | mem
    · exact noType
    · simp only [numberText]
      exact soh_not_mem_decimal number
    · exact plainParams.sender
    · exact plainParams.target
    · exact noTime
    · exact plain.noDelimiter field mem
  have scanned : scannedFields params.fixVersion
      (MessageFactory.headerFields params type number time ++ fields) =
      [⟨8, params.fixVersion⟩, ⟨9, decimal (fieldsText (MessageFactory.headerFields params type
        number time ++ fields)).length⟩, ⟨35, type⟩, ⟨34, decimal number⟩] ++
        (⟨49, params.senderCompId⟩ :: ⟨56, params.targetCompId⟩ :: ⟨52, time⟩ ::
          fields.takeWhile (·.tag ≠ 10)) := by
    simp [scannedFields, MessageFactory.headerFields, numberText]
  have later : ∀ field ∈ (⟨49, params.senderCompId⟩ :: ⟨56, params.targetCompId⟩ ::
      ⟨52, time⟩ :: fields.takeWhile (·.tag ≠ 10) : List Field),
      field.tag ≠ 34 ∧ field.tag ≠ 35 := by
    intro field mem
    simp only [List.mem_cons] at mem
    rcases mem with rfl | rfl | rfl | mem
    · simp
    · simp
    · simp
    · have mem' := (List.takeWhile_prefix _).subset mem
      exact ⟨plain.notSeq field mem', plain.notType field mem'⟩
  have read : (fromChars 32 (decimal number)).value.getD 0 = number := by
    rw [word32] at lt
    rw [fromChars_decimal lt]
    rfl
  rw [createMessageIndex_wireOf plainParams.version noBody, scanned, MsgIndex.recordFields_append,
    MsgIndex.seq_recordFields fun field mem => (later field mem).1,
    MsgIndex.msgType_recordFields fun field mem => (later field mem).2]
  simp [MsgIndex.recordFields, MsgIndex.record_decimal, read]

end Stamped

end FixEngine
