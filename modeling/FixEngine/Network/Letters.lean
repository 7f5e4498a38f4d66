import FixEngine.Session.Integers
import FixEngine.Session.Reading
import FixEngine.Validation.Builders

/-!
# Messages on their way

A `Letter` is what a session has to say: a type, a number and fields. `Written` is the wire of a
letter, with the header of the session that stamped it and the time it did. When the fields fit the
table of the type, the peer cuts the letter out of the stream, parses it, accepts it, and finds type,
number and fields in it again.
-/

namespace FixEngine

/-- The fields behind a stamped header fit the table of their type. -/
structure Fitting (schema : MessageSchema) (fields : List Field) : Prop where
  writable : ∀ field ∈ fields, BuilderCall.Writable schema field
  complete : BuilderCall.TagsComplete schema.table (fields.map Field.tag)

theorem fitting_call (factory : MessageFactory) {call : BuilderCall} (plain : call.TextsPlain) :
    Fitting call.schema (call.fields factory) :=
  ⟨BuilderCall.writable_fields factory plain, BuilderCall.tagsComplete factory call⟩

/-- A message before it is written: its type, its number and its own fields. -/
structure Letter where
  type : Bytes
  number : ℕ
  fields : List Field

/-- The CompIDs of two peers. -/
structure SessionParameters.Mirrors (mine theirs : SessionParameters) : Prop where
  sender_eq : mine.senderCompId = theirs.targetCompId
  target_eq : mine.targetCompId = theirs.senderCompId

theorem SessionParameters.Mirrors.symm {mine theirs : SessionParameters}
    (mirrors : mine.Mirrors theirs) : theirs.Mirrors mine :=
  ⟨mirrors.target_eq.symm, mirrors.sender_eq.symm⟩

namespace Letter

/-- The stamped header and the fields. -/
def body (letter : Letter) (params : SessionParameters) (time : Bytes) : List Field :=
  MessageFactory.headerFields params letter.type letter.number time ++ letter.fields

/-- The letter as a session with the given parameters writes it. -/
def Written (params : SessionParameters) (letter : Letter) (wire : Bytes) : Prop :=
  ∃ time, time ≠ [] ∧ soh ∉ time ∧ wire = wireOf fix44 (letter.body params time)

/-- The type is known and its table fits the fields; the number is one that is printed as it is. -/
structure Legible (letter : Letter) : Prop where
  fitting : ∃ schema, Registry.get letter.type = some schema ∧ Fitting schema letter.fields
  number_lt : letter.number < 2 ^ 63

section Read

variable {params mine : SessionParameters} {letter : Letter} {wire time : Bytes}
  {schema : MessageSchema}

theorem type_plain (registered : Registry.get letter.type = some schema) :
    letter.type ≠ [] ∧ soh ∉ letter.type := by
  have all : ∀ schema ∈ Registry.messageSchemas, schema.msgType ≠ [] ∧ soh ∉ schema.msgType := by
    decide
  rcases Registry.msgType_of_get registered with ⟨same, mem⟩
  rw [← same]
  exact all schema ((List.perm_insertionSort _ _).subset mem)

/-- Header fields and own fields can be written and are known to the table. -/
theorem writable_body (presentable : params.Presentable)
    (registered : Registry.get letter.type = some schema) (fitting : Fitting schema letter.fields)
    (time_ne_nil : time ≠ []) (noTime : soh ∉ time) :
    ∀ field ∈ letter.body params time, BuilderCall.Writable schema field := by
  intro field mem
  rcases List.mem_append.mp mem with inHeader | inFields
  · simp only [MessageFactory.headerFields, List.mem_cons, List.not_mem_nil, or_false] at inHeader
    rcases inHeader with rfl | rfl | rfl | rfl | rfl
    · exact BuilderCall.writable_text _ (BuilderCall.knows_standard _ (by decide +kernel))
        (by norm_num) (type_plain registered).1 (type_plain registered).2
    · exact BuilderCall.writable_number _ (BuilderCall.knows_standard _ (by decide +kernel))
        (by norm_num) _
    · exact BuilderCall.writable_text _ (BuilderCall.knows_standard _ (by decide +kernel))
        (by norm_num) presentable.sender_ne_nil presentable.plain.sender
    · exact BuilderCall.writable_text _ (BuilderCall.knows_standard _ (by decide +kernel))
        (by norm_num) presentable.target_ne_nil presentable.plain.target
    · exact BuilderCall.writable_text _ (BuilderCall.knows_standard _ (by decide +kernel))
        (by norm_num) time_ne_nil noTime
  · exact fitting.writable field inFields

/-- So can the begin string, the length and the checksum. -/
theorem fitsTable_parsed (presentable : params.Presentable)
    (registered : Registry.get letter.type = some schema) (fitting : Fitting schema letter.fields)
    (time_ne_nil : time ≠ []) (noTime : soh ∉ time) :
    ∀ field ∈ parsedFields (letter.body params time), FitsTable schema.table field := by
  have version : BuilderCall.Writable schema ⟨8, fix44⟩ :=
    BuilderCall.writable_text _ (BuilderCall.knows_standard _ (by decide +kernel)) (by norm_num)
      (by decide) (by decide)
  have length := @BuilderCall.writable_number 9 schema
    (BuilderCall.knows_standard _ (by decide +kernel)) (by norm_num)
    ((fieldsText (letter.body params time)).length : ℕ)
  rw [toChars_natCast] at length
  rcases BuilderCall.knows_standard schema (show ∃ entry ∈ Schema.standardHeader ++ Schema.trailer,
    entry.tag = 10 ∧ entry.type = .int by decide +kernel) with ⟨entry, inTable, isTag, isInt⟩
  intro field mem
  simp only [parsedFields, List.cons_append, List.mem_cons, List.mem_append, List.not_mem_nil,
    or_false] at mem
  rcases mem with rfl | rfl | inBody | rfl
  · exact version.2
  · exact length.2
  · exact (writable_body presentable registered fitting time_ne_nil noTime field inBody).2
  · have typed := isIntType_checksumText (byteSum_lt (frontOf fix44 (letter.body params time)))
    refine ⟨entry, inTable, isTag, by simp [isInt], ?_⟩
    simpa only [isInt, validateType] using typed

theorem tags_parsed (letter : Letter) (params : SessionParameters) (time : Bytes) :
    (parsedFields (letter.body params time)).map Field.tag =
      BuilderCall.frontTags ++ (letter.fields.map Field.tag ++ [10]) := by
  simp [parsedFields, body, MessageFactory.headerFields, BuilderCall.frontTags]

/-- The parser reads the fields of the letter back. -/
theorem parse_written (presentable : params.Presentable) (legible : letter.Legible)
    (time_ne_nil : time ≠ []) (noTime : soh ∉ time) :
    Parser.parse (wireOf fix44 (letter.body params time)) =
      (parsedFields (letter.body params time), []) := by
  rcases legible.fitting with ⟨schema, registered, fitting⟩
  exact parse_wireOf fun field mem =>
    (writable_body presentable registered fitting time_ne_nil noTime field mem).1

/-- A tag of the stamped header is found there. -/
theorem firstValue?_front {tag : ℕ} {value : Bytes}
    (inFront : ((⟨8, fix44⟩ : Field) :: ⟨9, decimal (fieldsText (letter.body params time)).length⟩ ::
      MessageFactory.headerFields params letter.type letter.number time).find? (·.tag = tag) =
        some ⟨tag, value⟩) :
    (parsedFields (letter.body params time)).firstValue? tag = some value := by
  have split : parsedFields (letter.body params time) = ((⟨8, fix44⟩ : Field) ::
      ⟨9, decimal (fieldsText (letter.body params time)).length⟩ ::
        MessageFactory.headerFields params letter.type letter.number time) ++
          (letter.fields ++ [⟨10, checksumText (byteSum (frontOf fix44
            (letter.body params time)))⟩]) := by
    simp [parsedFields, body]
  rw [Message.firstValue?, split, List.find?_append, inFront]
  rfl

/-- Every other tag is looked for among the fields of the letter. -/
theorem firstValue?_fields {tag : ℕ} (behind : tag ∉ BuilderCall.frontTags) (notLast : tag ≠ 10) :
    (parsedFields (letter.body params time)).firstValue? tag =
      Message.firstValue? letter.fields tag := by
  have differs : ∀ other ∈ BuilderCall.frontTags, other ≠ tag := by
    intro other mem same
    rw [same] at mem
    exact behind mem
  simp only [BuilderCall.frontTags, List.mem_cons, List.not_mem_nil, or_false, forall_eq_or_imp,
    forall_eq] at differs
  rcases differs with ⟨h8, h9, h35, h34, h49, h56, h52⟩
  have h10 : ¬(10 = tag) := fun same => notLast same.symm
  simp [Message.firstValue?, parsedFields, body, MessageFactory.headerFields, List.find?_append, h8,
    h9, h35, h34, h49, h56, h52, h10]

theorem conforms_parsed (presentable : params.Presentable)
    (registered : Registry.get letter.type = some schema) (fitting : Fitting schema letter.fields)
    (time_ne_nil : time ≠ []) (noTime : soh ∉ time) :
    Conforms CountText LeadingSelection schema.table (parsedFields (letter.body params time)) := by
  have complete := fitting.complete
  rw [BuilderCall.TagsComplete, ← tags_parsed letter params time] at complete
  exact conforms_of_fits (unambiguous_of_get registered)
    (fitsTable_parsed presentable registered fitting time_ne_nil noTime) complete.1 complete.2

/-- The letter is what a peer expects. -/
theorem conforming_parsed (presentable : params.Presentable) (mirrors : mine.Mirrors params)
    (legible : letter.Legible) (time_ne_nil : time ≠ []) (noTime : soh ∉ time) :
    Conforming CountText LeadingSelection mine (parsedFields (letter.body params time)) := by
  rcases legible.fitting with ⟨schema, registered, fitting⟩
  refine ⟨letter.type, schema, firstValue?_front (by simp [MessageFactory.headerFields]),
    registered, firstValue?_front ?_, firstValue?_front ?_,
    conforms_parsed presentable registered fitting time_ne_nil noTime⟩
  · simp [MessageFactory.headerFields, mirrors.target_eq]
  · simp [MessageFactory.headerFields, mirrors.sender_eq]

end Read

end Letter

namespace Validator

/-- Nothing is reported about an accepted message, and nothing about its severity. -/
theorem results_of_accepted {view : ValidMessageView} {params : SessionParameters} {type : Bytes}
    {schema : MessageSchema} (accepted : Accepted params view type schema) (validator : Validator) :
    (validator.validateMessage view params).results = {} := by
  obtain ⟨cleared, clearedDef⟩ : ∃ cleared : Validator, cleared =
      ⟨{}, (validator.tagscratch.ensureBits view.message.length).clear⟩ := ⟨_, rfl⟩
  have room : cleared.tagscratch.Covers view.message.length := by
    rw [clearedDef, TagScratch.Covers, TagScratch.length_clear]
    exact TagScratch.covers_ensureBits _ _
  have silent : cleared.results = {} := by rw [clearedDef]
  have grouped := (unambiguous_of_get accepted.registered).grouped
  have marked := marked_validateFields grouped room accepted.accounted
  have full : (validateFields view.message cleared schema.table).tagscratch.full
      view.message.length = true := by
    rw [TagScratch.full_iff]
    intro index inside
    rw [marked.marks_iff]
    exact .inr (accepted.covered index inside)
  simp only [validateMessage, accepted.type_eq, accepted.registered, ← clearedDef,
    passes_eq grouped accepted.fits accepted.accounted, full, Bool.not_true, Bool.and_false,
    Bool.false_eq_true, if_false]
  rw [marked.results_eq, silent]

end Validator

namespace Letter

section Accepted

variable {params : SessionParameters} {letter : Letter} {wire : Bytes} {session : Session}

/-- The number stamped into a letter is the one that is read. -/
theorem header_parsed (legible : letter.Legible) (params : SessionParameters) (time : Bytes) :
    (makeValidMessageView (parsedFields (letter.body params time))).headerCache.msgSeqNum =
        letter.number ∧
      (makeValidMessageView (parsedFields (letter.body params time))).headerCache.hasMsgSeqNum =
        true := by
  rcases legible.fitting with ⟨schema, registered, fitting⟩
  have printed : toChars (toInt64 letter.number) = decimal letter.number := by
    rw [toInt64_eq legible.number_lt, toChars_natCast]
  have fits : letter.number < 2 ^ 64 := by
    have := legible.number_lt
    omega
  have noNumber : ∀ field ∈ letter.fields, field.tag ≠ 34 := by
    intro field mem isNumber
    have distinct := (List.nodup_append.mp fitting.complete.1).2.2 34 (by decide) field.tag
      (List.mem_append_left _ (List.mem_map_of_mem mem))
    exact distinct isNumber.symm
  have read := @number_makeValidMessageView (parsedFields (letter.body params time))
    [⟨8, fix44⟩, ⟨9, decimal (fieldsText (letter.body params time)).length⟩, ⟨35, letter.type⟩]
    ([⟨49, params.senderCompId⟩, ⟨56, params.targetCompId⟩, ⟨52, time⟩] ++ letter.fields ++
      [⟨10, checksumText (byteSum (frontOf fix44 (letter.body params time)))⟩])
    ⟨34, decimal letter.number⟩ (by simp [parsedFields, body, MessageFactory.headerFields, printed])
    rfl ?_
  · rw [read.1, read.2, whole_fromChars_decimal fits, fromChars_decimal fits]
    exact ⟨rfl, rfl⟩
  · intro other mem
    simp only [List.cons_append, List.nil_append, List.mem_cons, List.mem_append, List.not_mem_nil,
      or_false] at mem
    rcases mem with rfl | rfl | rfl | rfl | rfl | rfl | own | rfl
    · simp
    · simp
    · simp
    · simp
    · simp
    · simp
    · exact noNumber other own
    · simp

/-- Nothing is wrong with a letter. -/
theorem accepts_parsed (presentable : params.Presentable) (mirrors : session.params.Mirrors params)
    (legible : letter.Legible) {time : Bytes} (time_ne_nil : time ≠ []) (noTime : soh ∉ time) :
    session.Accepts (parsedFields (letter.body params time)) letter.type := by
  have conforming := conforming_parsed presentable mirrors legible time_ne_nil noTime
  have starts : StartsStandard (parsedFields (letter.body params time)) :=
    ⟨_, _, _, _, rfl, rfl, rfl, rfl, rfl⟩
  have ends : ∃ front last, parsedFields (letter.body params time) = front ++ [last] ∧
      last.tag = 10 := ⟨_, _, rfl, rfl⟩
  rcases Validator.accepted_of_conforming ends starts conforming with ⟨type, schema, accepted⟩
  have results : session.results (parsedFields (letter.body params time)) = {} :=
    Validator.results_of_accepted accepted session.validator
  have cached := (Validator.conforming_of_accepted accepted).2 (35, HeaderCache.msgType)
    (by simp [HeaderCache.slots])
  refine ⟨by rw [results]; decide, by rw [results], ?_, (header_parsed legible params time).2⟩
  exact cached.trans (firstValue?_front (by simp [MessageFactory.headerFields]))

/-- What a session that the letter is for finds in its wire. -/
structure ReadBy (letter : Letter) (session : Session) (wire : Bytes) : Prop where
  noErrors : (Parser.parse wire).2 = []
  accepts : session.Accepts (Parser.parse wire).1 letter.type
  number_eq : Session.numberOf wire = letter.number
  field_eq : ∀ tag, tag ∉ BuilderCall.frontTags → tag ≠ 10 →
    (Parser.parse wire).1.firstValue? tag = Message.firstValue? letter.fields tag

theorem Written.readBy (written : letter.Written params wire) (presentable : params.Presentable)
    (mirrors : session.params.Mirrors params) (legible : letter.Legible) :
    letter.ReadBy session wire := by
  rcases written with ⟨time, time_ne_nil, noTime, rfl⟩
  have parsed := parse_written presentable legible time_ne_nil noTime
  refine ⟨by rw [parsed], ?_, ?_, ?_⟩
  · rw [parsed]
    exact accepts_parsed presentable mirrors legible time_ne_nil noTime
  · rw [Session.numberOf, Session.viewOf, parsed]
    exact (header_parsed legible params time).1
  · intro tag behind notLast
    rw [parsed]
    exact firstValue?_fields behind notLast

end Accepted

end Letter

/-- The framer cuts the wire out of whatever follows it. -/
def Framed (wire : Bytes) : Prop :=
  ∀ later, Reference.frames (wire ++ later) = wire :: Reference.frames later

theorem framed_wireOf {body : List Field}
    (fits : (fieldsText body).length ≤ Framer.maxMessageSize) : Framed (wireOf fix44 body) :=
  frames_wireOf_append fits

/-- The frames of a stream of wires are the wires. -/
theorem frames_flatten {wires : List Bytes} (framed : ∀ wire ∈ wires, Framed wire) :
    Reference.frames wires.flatten = wires := by
  induction wires with
  | nil => exact Reference.frames_of_find_none (by decide)
  | cons wire rest ih =>
      rw [List.flatten_cons, framed wire List.mem_cons_self,
        ih fun other mem => framed other (List.mem_cons_of_mem _ mem)]

/-- The part of the stream that has arrived has some of the wires, from the first on. -/
theorem frames_of_arrived {wires : List Bytes} (framed : ∀ wire ∈ wires, Framed wire)
    {received rest : Bytes} (stream_eq : received ++ rest = wires.flatten) :
    Reference.frames received <+: wires := by
  have whole := Reference.frames_prefix received rest
  rwa [stream_eq, frames_flatten framed] at whole

namespace Session

variable {session : Session} {message : Message} {wire type : Bytes}

/-- A message whose turn it is goes to its handler. -/
theorem dispatch_inTurn (running : session.stopped = false)
    (admitted : session.Admitted message type) (raw : Bytes)
    (turn : (makeValidMessageView message).headerCache.msgSeqNum = session.seqProvider.nextIn) :
    session.dispatch message raw = ((session.prepared message).updateIn
      ((makeValidMessageView message).headerCache.msgSeqNum + 1)).handle type
        (makeValidMessageView message) := by
  rw [dispatch_prepared running admitted raw, checkSequence]
  simp only [(session.keeps_prepared message).nextIn_eq, turn, if_true]

/-- So does a frame, and outside a recovery nothing more is done. -/
theorem processWireMessage_turn (running : session.stopped = false)
    (noErrors : (Parser.parse wire).2 = [])
    (admitted : session.Admitted (Parser.parse wire).1 type)
    (turn : numberOf wire = session.seqProvider.nextIn)
    (settled : (((session.prepared (Parser.parse wire).1).updateIn (numberOf wire + 1)).handle type
      (viewOf wire)).state ≠ .recoveringResend) :
    session.processWireMessage wire = ((session.prepared (Parser.parse wire).1).updateIn
      (numberOf wire + 1)).handle type (viewOf wire) := by
  have received : session.receive wire = ((session.prepared (Parser.parse wire).1).updateIn
      (numberOf wire + 1)).handle type (viewOf wire) := by
    simp only [receive, noErrors, if_true]
    exact dispatch_inTurn running admitted wire turn
  rw [processWireMessage, received, drainRecoveryCache, if_pos (by simp [settled])]

end Session

end FixEngine
