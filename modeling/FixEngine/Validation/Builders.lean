import FixEngine.Outbound.Regenerate
import FixEngine.Validation.Conformance
import FixEngine.Wire.Overlong

/-!
# What the builders write is accepted by the peer

The builders of the factory and the tables of the validator are maintained apart. A message without
groups conforms to a table when its tags are distinct, all required ones are among them and each
value has the type that the table gives its tag; the builders write such messages, so the peer, whose
CompIDs are swapped, reads them without errors and accepts them. Only a body whose length does not
fit into the ten digits of the placeholder is lost.
-/

namespace FixEngine

open FieldSchema (levelTags groupTags Flat Grouped Unambiguous)

section Plain

variable {table : List FieldSchema} {message : Message} {text : Bytes}

/-- A field that the table knows, with a value of its type. -/
def FitsTable (table : List FieldSchema) (field : Field) : Prop :=
  ∃ entry ∈ table, entry.tag = field.tag ∧ entry.type ≠ .group ∧
    validateType field.value entry.type = true

/-- A message without groups conforms by its tags and the types of its values. -/
theorem conforms_of_fits {Counts : Bytes → ℕ → Prop} {Run : List FieldSchema → Message → Prop}
    (unambiguous : Unambiguous table) (fits : ∀ field ∈ message, FitsTable table field)
    (distinct : (message.map Field.tag).Nodup)
    (complete : ∀ entry ∈ table, entry.presence = .required → entry.tag ∈ message.map Field.tag) :
    Conforms Counts Run table message where
  known := by
    intro field mem
    rcases fits field mem with ⟨entry, inTable, same, _⟩
    left
    rw [← same]
    exact List.mem_map_of_mem inTable
  once := by
    intro field mem _
    have counted := List.count_eq_one_of_mem distinct (List.mem_map_of_mem mem)
    rw [List.count, List.countP_map] at counted
    rw [← counted]
    apply List.countP_congr
    intro other _
    simp
  required := by
    intro entry inTable required
    rcases List.mem_map.mp (complete entry inTable required) with ⟨field, mem, same⟩
    exact ⟨field, mem, same⟩
  typed := by
    intro entry inTable _ field mem same
    rcases fits field mem with ⟨other, inTableAgain, sameAgain, _, typed⟩
    rw [entry_unique unambiguous inTable inTableAgain (by rw [sameAgain, same])]
    exact typed
  groups := by
    intro entry inTable fields hasFields
    left
    intro field mem
    rcases fits field mem with ⟨other, otherInTable, same, notGroup, _⟩
    constructor
    · intro isCount
      have sameEntry := entry_unique unambiguous otherInTable inTable (by rw [same, isCount])
      subst sameEntry
      have grouped := unambiguous.grouped other otherInTable
      rcases other with ⟨tag, type, presence, groupSchema⟩
      simp only [FieldSchema.groupSchema] at hasFields
      subst hasFields
      exact notGroup grouped.1
    · intro inGroup
      apply unambiguous.disjoint _ (mem_groupTags inTable hasFields inGroup)
      rw [← same]
      exact List.mem_map_of_mem otherInTable

theorem isIntType_of_digits (nonempty : text ≠ []) (digits : ∀ b ∈ text, isDigit b = true) :
    isIntType text = true := by
  have noSign : firstNumIdx text = 0 := by
    rcases text with _ | ⟨first, rest⟩
    · rfl
    · have digit := digits first (List.mem_cons_self ..)
      rw [firstNumIdx]
      · rintro _ same
        rw [(List.cons.inj same).1] at digit
        exact absurd digit (by decide)
      · rintro _ same
        rw [(List.cons.inj same).1] at digit
        exact absurd digit (by decide)
  simp only [isIntType, noSign, List.drop_zero, Bool.and_eq_true, decide_eq_true_eq, List.all_eq_true]
  exact ⟨nonempty, digits⟩

theorem isIntType_checksumText {sum : ℕ} (lt : sum < 256) : isIntType (checksumText sum) = true := by
  have length := length_checksumText lt
  exact isIntType_of_digits (List.ne_nil_of_length_pos (by omega))
    fun _ mem => isDigit_of_mem_checksumText mem

/-- A printed number is of integer type, with its sign. -/
theorem isIntType_toChars (n : ℤ) : isIntType (toChars n) = true := by
  rcases n with n | n
  · exact isIntType_of_digits (decimal_ne_nil n) fun _ mem => isDigit_of_mem_decimal mem
  · simp only [toChars, isIntType, firstNumIdx, List.drop_succ_cons, List.drop_zero,
      Bool.and_eq_true, decide_eq_true_eq, List.all_eq_true]
    exact ⟨decimal_ne_nil _, fun _ mem => isDigit_of_mem_decimal mem⟩

end Plain

/-- The parameters of the peer. -/
def SessionParameters.swapped (params : SessionParameters) : SessionParameters :=
  { params with senderCompId := params.targetCompId, targetCompId := params.senderCompId }

/-- A call of a builder. -/
inductive BuilderCall
  | logon (heartbeatOverride : ℤ) (echoReset : Bool)
  | heartBeat (testReqId : Bytes)
  | testRequest (id : Bytes)
  | resendRequest (beginSeqNo endSeqNo : ℕ)
  | sequenceReset (newSeqNo : ℕ) (gapfill : Bool)
  | sequenceResetGapFill (msgSeqNum newSeqNo : ℕ)
  | logout (text : Bytes)
  | reject (refSeqNum reason tag : ℕ) (text : Bytes)
  | customMessage (payload : Bytes)

namespace BuilderCall

/-- The message and the factory after the call. -/
def run (factory : MessageFactory) : BuilderCall → Bytes × MessageFactory
  | logon heartbeatOverride echoReset => factory.logon heartbeatOverride echoReset
  | heartBeat testReqId => factory.heartBeat testReqId
  | testRequest id => factory.testRequest id
  | resendRequest beginSeqNo endSeqNo => factory.resendRequest beginSeqNo endSeqNo
  | sequenceReset newSeqNo gapfill => factory.sequenceReset newSeqNo gapfill
  | sequenceResetGapFill msgSeqNum newSeqNo => factory.sequenceResetGapFill msgSeqNum newSeqNo
  | logout text => factory.logout text
  | reject refSeqNum reason tag text => factory.reject refSeqNum reason tag text
  | customMessage payload => factory.customMessage payload

/-- The text arguments have no delimiters, and are there where the builder does not leave the field
out. -/
def TextsPlain : BuilderCall → Prop
  | heartBeat testReqId => soh ∉ testReqId
  | testRequest id => id ≠ [] ∧ soh ∉ id
  | logout text => soh ∉ text
  | reject _ _ _ text => soh ∉ text
  | customMessage payload => payload ≠ [] ∧ soh ∉ payload
  | _ => True

/-- The table of the message. -/
def schema : BuilderCall → MessageSchema
  | logon .. => ⟨ascii "A", Schema.logon⟩
  | heartBeat .. => ⟨ascii "0", Schema.heartbeat⟩
  | testRequest .. => ⟨ascii "1", Schema.testRequest⟩
  | resendRequest .. => ⟨ascii "2", Schema.resendRequest⟩
  | sequenceReset .. => ⟨ascii "4", Schema.sequenceReset⟩
  | sequenceResetGapFill .. => ⟨ascii "4", Schema.sequenceReset⟩
  | logout .. => ⟨ascii "5", Schema.logout⟩
  | reject .. => ⟨ascii "3", Schema.reject⟩
  | customMessage .. => ⟨MessageFactory.customType, Schema.custom⟩

/-- The number the message has. -/
def seqNum (factory : MessageFactory) : BuilderCall → ℕ
  | sequenceResetGapFill msgSeqNum _ => msgSeqNum
  | _ => factory.seqProvider.nextOut

/-- What follows the stamped header. -/
def fields (factory : MessageFactory) : BuilderCall → List Field
  | logon heartbeatOverride echoReset =>
      [⟨98, toChars factory.params.encryptMethod⟩, ⟨141, ascii (if echoReset then "Y" else "N")⟩,
        ⟨108, toChars heartbeatOverride⟩]
  | heartBeat testReqId => if testReqId = [] then [] else [⟨112, testReqId⟩]
  | testRequest id => [⟨112, id⟩]
  | resendRequest beginSeqNo endSeqNo =>
      [⟨7, toChars (toInt64 beginSeqNo)⟩, ⟨16, toChars (toInt64 endSeqNo)⟩]
  | sequenceReset newSeqNo gapfill =>
      (if gapfill then [⟨123, ascii "Y"⟩] else []) ++ [⟨36, toChars (toInt64 newSeqNo)⟩]
  | sequenceResetGapFill _ newSeqNo =>
      [⟨123, ascii "Y"⟩, ⟨36, toChars (toInt64 newSeqNo)⟩, ⟨43, ascii "Y"⟩,
        ⟨122, factory.clock.tick.nowFix⟩]
  | logout text => if text = [] then [] else [⟨58, text⟩]
  | reject refSeqNum reason tag text =>
      [⟨45, toChars (toInt64 refSeqNum)⟩] ++ (if tag ≠ 0 then [⟨371, toChars tag⟩] else []) ++
        [⟨373, toChars reason⟩] ++ (if text = [] then [] else [⟨58, text⟩])
  | customMessage payload => [⟨9250, payload⟩]

/-- The body of the message: the stamped header and the fields. -/
def body (factory : MessageFactory) (call : BuilderCall) : List Field :=
  MessageFactory.headerFields factory.params call.schema.msgType (call.seqNum factory)
    factory.clock.nowFix ++ call.fields factory

variable {factory : MessageFactory} {call : BuilderCall}

theorem run_wire (fits : (fieldsText (call.body factory)).length < 10 ^ 10) :
    (call.run factory).1 = wireOf factory.params.fixVersion (call.body factory) := by
  cases call with
  | sequenceResetGapFill msgSeqNum newSeqNo =>
      exact factory.sequenceResetGapFill_wire msgSeqNum newSeqNo fits
  | _ => exact factory.build_wire _ _ fits

theorem get_schema (call : BuilderCall) : Registry.get call.schema.msgType = some call.schema := by
  cases call <;> rfl

/-- A field that can be written, and that the table of its message knows. -/
def Writable (schema : MessageSchema) (field : Field) : Prop :=
  field.WellFormed ∧ FitsTable schema.table field

/-- The table has a field with a tag, of the given type. -/
def Knows (schema : MessageSchema) (tag : ℕ) (type : FieldType) : Prop :=
  ∃ entry ∈ schema.table, entry.tag = tag ∧ entry.type = type

instance (schema : MessageSchema) (tag : ℕ) (type : FieldType) : Decidable (Knows schema tag type) :=
  inferInstanceAs (Decidable (∃ entry ∈ schema.table, entry.tag = tag ∧ entry.type = type))

section Writable

variable {tag : ℕ}

theorem writable_number (schema : MessageSchema) (known : Knows schema tag .int)
    (tag_lt : tag < 10 ^ 7) (n : ℤ) : Writable schema ⟨tag, toChars n⟩ := by
  rcases known with ⟨entry, mem, isTag, isInt⟩
  refine ⟨MessageFactory.wellFormed_number tag_lt n, entry, mem, isTag, by simp [isInt], ?_⟩
  rw [isInt]
  exact isIntType_toChars n

theorem writable_text (schema : MessageSchema) (known : Knows schema tag .string)
    (tag_lt : tag < 10 ^ 7) {text : Bytes} (nonempty : text ≠ []) (noSoh : soh ∉ text) :
    Writable schema ⟨tag, text⟩ := by
  rcases known with ⟨entry, mem, isTag, isString⟩
  refine ⟨⟨tag_lt, nonempty, noSoh⟩, entry, mem, isTag, by simp [isString], ?_⟩
  rw [isString]
  rfl

theorem writable_flag (schema : MessageSchema) (known : Knows schema tag .boolean)
    (tag_lt : tag < 10 ^ 7) (flag : Bool) :
    Writable schema ⟨tag, ascii (if flag then "Y" else "N")⟩ := by
  rcases known with ⟨entry, mem, isTag, isBoolean⟩
  refine ⟨⟨tag_lt, ?_, ?_⟩, entry, mem, isTag, by simp [isBoolean], ?_⟩
  · cases flag <;> simp [ascii]
  · cases flag <;> simp [ascii, soh]
  · rw [isBoolean]
    cases flag <;> rfl

end Writable

/-- Every field a builder adds can be written, and is known to the table of the message. -/
theorem writable_fields (factory : MessageFactory) (plain : call.TextsPlain) :
    ∀ field ∈ call.fields factory, Writable call.schema field := by
  intro field mem
  cases call with
  | logon heartbeatOverride echoReset =>
      simp only [fields, List.mem_cons, List.not_mem_nil, or_false] at mem
      rcases mem with rfl | rfl | rfl
      · exact writable_number ⟨ascii "A", Schema.logon⟩ (by decide +kernel) (by norm_num) _
      · exact writable_flag ⟨ascii "A", Schema.logon⟩ (by decide +kernel) (by norm_num) _
      · exact writable_number ⟨ascii "A", Schema.logon⟩ (by decide +kernel) (by norm_num) _
  | heartBeat testReqId =>
      by_cases empty : testReqId = []
      · simp [fields, empty] at mem
      · simp only [fields, empty, if_false, List.mem_singleton] at mem
        subst mem
        exact writable_text ⟨ascii "0", Schema.heartbeat⟩ (by decide +kernel) (by norm_num)
          empty plain
  | testRequest id =>
      simp only [fields, List.mem_singleton] at mem
      subst mem
      exact writable_text ⟨ascii "1", Schema.testRequest⟩ (by decide +kernel) (by norm_num)
        plain.1 plain.2
  | resendRequest beginSeqNo endSeqNo =>
      simp only [fields, List.mem_cons, List.not_mem_nil, or_false] at mem
      rcases mem with rfl | rfl
      · exact writable_number ⟨ascii "2", Schema.resendRequest⟩ (by decide +kernel) (by norm_num) _
      · exact writable_number ⟨ascii "2", Schema.resendRequest⟩ (by decide +kernel) (by norm_num) _
  | sequenceReset newSeqNo gapfill =>
      simp only [fields, List.mem_append, List.mem_singleton] at mem
      rcases mem with flag | rfl
      · cases gapfill
        · simp at flag
        · rw [if_pos rfl, List.mem_singleton] at flag
          subst flag
          exact writable_flag ⟨ascii "4", Schema.sequenceReset⟩ (by decide +kernel)
            (by norm_num) true
      · exact writable_number ⟨ascii "4", Schema.sequenceReset⟩ (by decide +kernel)
          (by norm_num) _
  | sequenceResetGapFill msgSeqNum newSeqNo =>
      simp only [fields, List.mem_cons, List.not_mem_nil, or_false] at mem
      rcases mem with rfl | rfl | rfl | rfl
      · exact writable_flag ⟨ascii "4", Schema.sequenceReset⟩ (by decide +kernel)
          (by norm_num) true
      · exact writable_number ⟨ascii "4", Schema.sequenceReset⟩ (by decide +kernel)
          (by norm_num) _
      · exact writable_text ⟨ascii "4", Schema.sequenceReset⟩ (by decide +kernel) (by norm_num) (by decide)
          (by decide)
      · exact writable_text ⟨ascii "4", Schema.sequenceReset⟩ (by decide +kernel) (by norm_num)
          (Clock.times_ne_nil _ _) (Clock.soh_not_mem_times _ _)
  | logout text =>
      by_cases empty : text = []
      · simp [fields, empty] at mem
      · simp only [fields, empty, if_false, List.mem_singleton] at mem
        subst mem
        exact writable_text ⟨ascii "5", Schema.logout⟩ (by decide +kernel) (by norm_num) empty
          plain
  | reject refSeqNum reason tag text =>
      simp only [fields, List.mem_append, List.mem_singleton] at mem
      rcases mem with ((rfl | refTag) | rfl) | inText
      · exact writable_number ⟨ascii "3", Schema.reject⟩ (by decide +kernel) (by norm_num) _
      · by_cases nonzero : tag ≠ 0
        · rw [if_pos nonzero, List.mem_singleton] at refTag
          subst refTag
          exact writable_number ⟨ascii "3", Schema.reject⟩ (by decide +kernel) (by norm_num) _
        · simp [nonzero] at refTag
      · exact writable_number ⟨ascii "3", Schema.reject⟩ (by decide +kernel) (by norm_num) _
      · by_cases empty : text = []
        · simp [empty] at inText
        · rw [if_neg empty, List.mem_singleton] at inText
          subst inText
          exact writable_text ⟨ascii "3", Schema.reject⟩ (by decide +kernel) (by norm_num) empty plain
  | customMessage payload =>
      simp only [fields, List.mem_singleton] at mem
      subst mem
      exact writable_text ⟨MessageFactory.customType, Schema.custom⟩ (by decide +kernel) (by norm_num)
        plain.1 plain.2

/-- The tags of the stamped fields in front of a message. -/
def frontTags : List ℕ := [8, 9, 35, 34, 49, 56, 52]

/-- The tags of a message are distinct, and all required ones are among them. -/
def TagsComplete (table : List FieldSchema) (tags : List ℕ) : Prop :=
  (frontTags ++ (tags ++ [10])).Nodup ∧
    ∀ entry ∈ table, entry.presence = .required → entry.tag ∈ frontTags ++ (tags ++ [10])

instance (table : List FieldSchema) (tags : List ℕ) : Decidable (TagsComplete table tags) :=
  inferInstanceAs (Decidable (_ ∧ _))

theorem tagsComplete (factory : MessageFactory) (call : BuilderCall) :
    TagsComplete call.schema.table ((call.fields factory).map Field.tag) := by
  cases call with
  | logon heartbeatOverride echoReset =>
      show TagsComplete (MessageSchema.table ⟨ascii "A", Schema.logon⟩) [98, 141, 108]
      decide +kernel
  | heartBeat testReqId =>
      have tags : ((heartBeat testReqId).fields factory).map Field.tag =
          if testReqId = [] then [] else [112] := by
        simp only [fields]
        split <;> rfl
      rw [tags, schema]
      split <;> decide +kernel
  | testRequest id =>
      show TagsComplete (MessageSchema.table ⟨ascii "1", Schema.testRequest⟩) [112]
      decide +kernel
  | resendRequest beginSeqNo endSeqNo =>
      show TagsComplete (MessageSchema.table ⟨ascii "2", Schema.resendRequest⟩) [7, 16]
      decide +kernel
  | sequenceReset newSeqNo gapfill =>
      cases gapfill
      · show TagsComplete (MessageSchema.table ⟨ascii "4", Schema.sequenceReset⟩) [36]
        decide +kernel
      · show TagsComplete (MessageSchema.table ⟨ascii "4", Schema.sequenceReset⟩) [123, 36]
        decide +kernel
  | sequenceResetGapFill msgSeqNum newSeqNo =>
      show TagsComplete (MessageSchema.table ⟨ascii "4", Schema.sequenceReset⟩) [123, 36, 43, 122]
      decide +kernel
  | logout text =>
      have tags : ((logout text).fields factory).map Field.tag =
          if text = [] then [] else [58] := by
        simp only [fields]
        split <;> rfl
      rw [tags, schema]
      split <;> decide +kernel
  | reject refSeqNum reason tag text =>
      have tags : ((reject refSeqNum reason tag text).fields factory).map Field.tag =
          [45] ++ (if tag ≠ 0 then [371] else []) ++ [373] ++ (if text = [] then [] else [58]) := by
        simp only [fields]
        split <;> split <;> rfl
      rw [tags, schema]
      split <;> split <;> decide +kernel
  | customMessage payload =>
      show TagsComplete (MessageSchema.table ⟨MessageFactory.customType, Schema.custom⟩) [9250]
      decide +kernel

theorem knows_standard (schema : MessageSchema) {tag : ℕ} {type : FieldType}
    (known : ∃ entry ∈ Schema.standardHeader ++ Schema.trailer, entry.tag = tag ∧ entry.type = type) :
    Knows schema tag type := by
  rcases known with ⟨entry, mem, isTag, isType⟩
  refine ⟨entry, ?_, isTag, isType⟩
  rcases List.mem_append.mp mem with inHeader | inTrailer
  · exact List.mem_append_left _ inHeader
  · exact List.mem_append_right _ (List.mem_append_right _ inTrailer)

/-- The fields of the message on the wire, as the parser reads them. -/
def message (factory : MessageFactory) (call : BuilderCall) : Message :=
  parsedFields (call.body factory)

theorem msgType_plain (call : BuilderCall) :
    call.schema.msgType ≠ [] ∧ soh ∉ call.schema.msgType := by
  have all : ∀ schema ∈ Registry.messageSchemas, schema.msgType ≠ [] ∧ soh ∉ schema.msgType := by
    decide
  exact all call.schema ((List.perm_insertionSort _ _).subset
    (Registry.msgType_of_get call.get_schema).2)

theorem writable_body (presentable : factory.params.Presentable) (plain : call.TextsPlain) :
    ∀ field ∈ call.body factory, Writable call.schema field := by
  intro field mem
  rcases List.mem_append.mp mem with inHeader | inFields
  · simp only [MessageFactory.headerFields, List.mem_cons, List.not_mem_nil, or_false] at inHeader
    rcases inHeader with rfl | rfl | rfl | rfl | rfl
    · exact writable_text _ (knows_standard _ (by decide +kernel)) (by norm_num)
        call.msgType_plain.1 call.msgType_plain.2
    · exact writable_number _ (knows_standard _ (by decide +kernel)) (by norm_num) _
    · exact writable_text _ (knows_standard _ (by decide +kernel)) (by norm_num)
        presentable.sender_ne_nil presentable.plain.sender
    · exact writable_text _ (knows_standard _ (by decide +kernel)) (by norm_num)
        presentable.target_ne_nil presentable.plain.target
    · exact writable_text _ (knows_standard _ (by decide +kernel)) (by norm_num)
        (Clock.times_ne_nil _ _) (Clock.soh_not_mem_times _ _)
  · exact writable_fields factory plain field inFields

theorem fitsTable_message (presentable : factory.params.Presentable) (plain : call.TextsPlain) :
    ∀ field ∈ call.message factory, FitsTable call.schema.table field := by
  have version : Writable call.schema ⟨8, fix44⟩ :=
    writable_text _ (knows_standard _ (by decide +kernel)) (by norm_num) (by decide) (by decide)
  have length := @writable_number 9 call.schema (knows_standard _ (by decide +kernel)) (by norm_num)
    ((fieldsText (call.body factory)).length : ℕ)
  rw [toChars_natCast] at length
  rcases knows_standard call.schema (show ∃ entry ∈ Schema.standardHeader ++ Schema.trailer,
    entry.tag = 10 ∧ entry.type = .int by decide +kernel) with ⟨entry, inTable, isTag, isInt⟩
  intro field mem
  simp only [message, parsedFields, List.cons_append, List.mem_cons, List.mem_append,
    List.not_mem_nil, or_false] at mem
  rcases mem with rfl | rfl | inBody | rfl
  · exact version.2
  · exact length.2
  · exact (writable_body presentable plain field inBody).2
  · have typed := isIntType_checksumText (byteSum_lt (frontOf fix44 (call.body factory)))
    refine ⟨entry, inTable, isTag, by simp [isInt], ?_⟩
    simpa only [isInt, validateType] using typed

theorem tags_message (factory : MessageFactory) (call : BuilderCall) :
    (call.message factory).map Field.tag =
      frontTags ++ ((call.fields factory).map Field.tag ++ [10]) := by
  simp [message, parsedFields, body, MessageFactory.headerFields, frontTags]

/-- The message of a builder is what the peer expects. -/
theorem conforming_message (presentable : factory.params.Presentable) (plain : call.TextsPlain) :
    Conforming CountText LeadingSelection factory.params.swapped (call.message factory) := by
  have found : ∀ tag value, ((⟨8, fix44⟩ : Field) :: ⟨9, decimal (fieldsText
      (call.body factory)).length⟩ :: MessageFactory.headerFields factory.params
        call.schema.msgType (call.seqNum factory) factory.clock.nowFix).find? (·.tag = tag) =
          some ⟨tag, value⟩ →
      (call.message factory).firstValue? tag = some value := by
    intro tag value inFront
    have split : call.message factory = ((⟨8, fix44⟩ : Field) :: ⟨9, decimal (fieldsText
        (call.body factory)).length⟩ :: MessageFactory.headerFields factory.params
          call.schema.msgType (call.seqNum factory) factory.clock.nowFix) ++
            (call.fields factory ++ [⟨10, checksumText (byteSum (frontOf fix44
              (call.body factory)))⟩]) := by
      simp [message, parsedFields, body]
    rw [Message.firstValue?, split, List.find?_append, inFront]
    rfl
  have complete := tagsComplete factory call
  rw [TagsComplete, ← tags_message] at complete
  refine ⟨call.schema.msgType, call.schema, found _ _ (by simp [MessageFactory.headerFields]),
    call.get_schema, found _ _ (by simp [MessageFactory.headerFields, SessionParameters.swapped]),
    found _ _ (by simp [MessageFactory.headerFields, SessionParameters.swapped]), ?_⟩
  exact conforms_of_fits (unambiguous_of_get call.get_schema) (fitsTable_message presentable plain)
    complete.1 complete.2

/-- What a builder writes is read without errors and accepted by the peer. -/
theorem accepted_by_peer (validator : Validator) (factory : MessageFactory) (call : BuilderCall)
    (presentable : factory.params.Presentable) (plain : call.TextsPlain)
    (fits : (fieldsText (call.body factory)).length < 10 ^ 10) :
    (Parser.parse (call.run factory).1).2 = [] ∧
      (validator.validateMessage (makeValidMessageView (Parser.parse (call.run factory).1).1)
        factory.params.swapped).results.errors = [] := by
  have read : Parser.parse (call.run factory).1 = (call.message factory, []) := by
    rw [run_wire fits, presentable.version]
    exact parse_wireOf fun field mem => (writable_body presentable plain field mem).1
  rw [read]
  refine ⟨rfl, ?_⟩
  rw [Validator.accepted_iff]
  apply Validator.accepted_of_conforming
  · exact ⟨_, _, rfl, rfl⟩
  · exact ⟨_, _, _, _, rfl, rfl, rfl, rfl, rfl⟩
  · exact conforming_message presentable plain

theorem accepted_by_peer_heartBeat :
    (Parser.parse ((heartBeat (ascii "x")).run (.fresh {} .standard)).1).2 = [] :=
  (accepted_by_peer {} (.fresh {} .standard) (heartBeat (ascii "x"))
    ⟨by decide, ⟨by decide, by decide, by decide⟩, by decide, by decide⟩ (show soh ∉ ascii "x" by decide)
    (by decide +kernel)).1

/-- A text with an equal sign behind its first byte is no integer. -/
theorem not_isIntType {start tail : Bytes} (nonempty : start ≠ []) (inTail : equalSign ∈ tail) :
    isIntType (start ++ tail) = false := by
  have notDigit : isDigit equalSign = false := by decide
  rcases start with _ | ⟨first, start⟩
  · exact absurd rfl nonempty
  have oneSign : firstNumIdx (first :: start ++ tail) = 0 ∨
      firstNumIdx (first :: start ++ tail) = 1 := by
    rw [firstNumIdx.eq_def]
    split <;> simp
  have behind : equalSign ∈ (first :: start ++ tail).drop (firstNumIdx (first :: start ++ tail)) := by
    rcases oneSign with zero | one
    · rw [zero, List.drop_zero]
      exact List.mem_append_right _ inTail
    · rw [one]
      exact List.mem_append_right _ inTail
  by_contra isInt
  simp only [isIntType, Bool.not_eq_false, Bool.and_eq_true, decide_eq_true_eq, List.all_eq_true]
    at isInt
  rw [isInt.2 equalSign behind] at notDigit
  cases notDigit

theorem run_heartBeat (factory : MessageFactory) (testReqId : Bytes) :
    ((heartBeat testReqId).run factory).1 =
      (((heartBeat testReqId).fields factory).foldl MessageFactory.addField
        (factory.stampHeader (ascii "0"))).stampTrailer.scratch.getBufferView := by
  simp only [run, MessageFactory.heartBeat, MessageFactory.build, fields]

/-- A Heartbeat whose body length has eleven digits is refused. -/
theorem refused_overlong {testReqId : Bytes} (presentable : factory.params.Presentable)
    (plain : (heartBeat testReqId).TextsPlain)
    (eleven : (decimal (fieldsText ((heartBeat testReqId).body factory)).length).length = 11)
    (validator : Validator) :
    (validator.validateMessage (makeValidMessageView (Parser.parse
      ((heartBeat testReqId).run factory).1).1) factory.params.swapped).results.errors ≠ [] := by
  have building := factory.building_build (ascii "0") ((heartBeat testReqId).fields factory)
  rw [show factory.bodyOf (ascii "0") ((heartBeat testReqId).fields factory) =
    (heartBeat testReqId).body factory from rfl] at building
  have writable := writable_body presentable plain
  rcases split : (heartBeat testReqId).body factory with _ | ⟨first, rest⟩
  · cases split
  rw [split] at writable eleven building
  have wire := building.stampTrailer_overlong eleven
  simp only [MessageFactory.params_foldl_addField, MessageFactory.params_stampHeader,
    presentable.version, ← run_heartBeat] at wire
  have digits : ∀ b ∈ decimal (fieldsText (first :: rest)).length, isDigit b = true :=
    fun _ mem => isDigit_of_mem_decimal mem
  have nonempty := decimal_ne_nil (fieldsText (first :: rest)).length
  generalize decimal (fieldsText (first :: rest)).length = length at wire digits nonempty
  have firstFormed := (writable first (List.mem_cons_self ..)).1
  have formed : ∀ field ∈ (⟨8, fix44⟩ :: ⟨9, length ++ (length.drop 10 ++ (decimal first.tag ++
      equalSign :: first.value))⟩ :: rest : List Field), field.WellFormed := by
    intro field mem
    rcases List.mem_cons.mp mem with rfl | mem
    · exact ⟨by decide, by decide, by decide⟩
    rcases List.mem_cons.mp mem with rfl | mem
    · have notInLength := not_mem_of_digits digits (show isDigit soh = false by decide)
      refine ⟨by norm_num, by simp [nonempty], ?_⟩
      simp only [List.mem_append, List.mem_cons, not_or]
      exact ⟨notInLength, fun mem => notInLength (List.mem_of_mem_drop mem), soh_not_mem_decimal _,
        by decide, firstFormed.soh_not_mem⟩
    · exact (writable field (List.mem_cons_of_mem _ mem)).1
  rw [wire, parse_summed formed]
  intro accepted
  rw [Validator.accepted_iff] at accepted
  rcases accepted with ⟨type, schema, accepted⟩
  rcases accepted.fits.bodyLength with ⟨atSecond, isSecond, isInt⟩
  cases isSecond
  rw [validateType, not_isIntType nonempty (by simp)] at isInt
  cases isInt

/-- A Heartbeat that echoes so long a text that the length of its body does not fit. -/
theorem refused_heartBeat {count : ℕ} (long : 10 ^ 10 ≤ count) (fewer : count < 10 ^ 10 + 10 ^ 9) :
    (MessageFactory.fresh {} .standard).params.Presentable ∧
      (heartBeat (List.replicate count 120)).TextsPlain ∧
      ¬((Parser.parse ((heartBeat (List.replicate count 120)).run (.fresh {} .standard)).1).2 = [] ∧
        (({} : Validator).validateMessage (makeValidMessageView (Parser.parse
          ((heartBeat (List.replicate count 120)).run (.fresh {} .standard)).1).1)
            (MessageFactory.fresh {} .standard).params.swapped).results.errors = []) := by
  have presentable : (MessageFactory.fresh {} .standard).params.Presentable :=
    ⟨by decide, ⟨by decide, by decide, by decide⟩, by decide, by decide⟩
  have plain : (heartBeat (List.replicate count 120)).TextsPlain := by
    intro mem
    have isX := List.eq_of_mem_replicate mem
    exact absurd isX (by decide)
  refine ⟨presentable, plain, fun accepted => refused_overlong presentable plain ?_ {} accepted.2⟩
  have header : (fieldsText (MessageFactory.headerFields (MessageFactory.fresh {} .standard).params
      (ascii "0") 1 (ascii "Now"))).length < 100 := by
    decide +kernel
  have fieldsEq : (heartBeat (List.replicate count 120)).fields (.fresh {} .standard) =
      [⟨112, List.replicate count 120⟩] := by
    rw [fields, if_neg]
    rw [List.replicate_eq_nil_iff]
    omega
  have bodyEq : (heartBeat (List.replicate count 120)).body (.fresh {} .standard) =
      MessageFactory.headerFields (MessageFactory.fresh {} .standard).params (ascii "0") 1
        (ascii "Now") ++ [⟨112, List.replicate count 120⟩] := by
    rw [body, fieldsEq]
    rfl
  have tagLength : (decimal 112).length = 3 := by decide
  have length : (fieldsText ((heartBeat (List.replicate count 120)).body
      (.fresh {} .standard))).length = (fieldsText (MessageFactory.headerFields
        (MessageFactory.fresh {} .standard).params (ascii "0") 1 (ascii "Now"))).length +
          (count + 5) := by
    rw [bodyEq, fieldsText_append, List.length_append, fieldsText_cons, fieldsText_nil,
      List.append_nil, length_fieldText, tagLength, List.length_replicate]
    omega
  generalize (fieldsText ((heartBeat (List.replicate count 120)).body
    (.fresh {} .standard))).length = total at length
  have high : (decimal total).length ≤ 11 := length_decimal_le (by decide) (by omega)
  have low : ¬(decimal total).length ≤ 10 := fun short =>
    absurd (lt_of_length_decimal_le short) (by omega)
  omega

/-- Ten gigabytes are too many. -/
theorem refused_heartBeat_long :
    (MessageFactory.fresh {} .standard).params.Presentable ∧
      (heartBeat (List.replicate (10 ^ 10) 120)).TextsPlain ∧
      ¬((Parser.parse ((heartBeat (List.replicate (10 ^ 10) 120)).run (.fresh {} .standard)).1).2 = [] ∧
        (({} : Validator).validateMessage (makeValidMessageView (Parser.parse
          ((heartBeat (List.replicate (10 ^ 10) 120)).run (.fresh {} .standard)).1).1)
            (MessageFactory.fresh {} .standard).params.swapped).results.errors = []) :=
  @refused_heartBeat (10 ^ 10) (Nat.le_refl _) (by norm_num)

end BuilderCall

end FixEngine
