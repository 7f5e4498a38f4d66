import FixEngine.Core.Schema

/-!
# The validator

`Validator` (`core/Validator.hpp`, `Validator.cpp`) checks a parsed message against the header
schema, the schema of its type and the trailer schema. Every field that a schema accounts for is
marked in the `TagScratch`; a message without other errors in which a field is left unmarked has
a field no schema knows.
-/

namespace FixEngine

/-- `Error::Validator`. -/
inductive ValidatorError
  | invalidTagNumber
  | requiredTagMissing
  | incorrectDataFormatForValue
  | compIdProblem
  | invalidMsgType
  | incorrectNumInGroupCount
  | other
  deriving DecidableEq, Repr

/-- The numbers of the codes the validator uses. -/
def ValidatorError.code : ValidatorError → ℕ
  | invalidTagNumber => 0
  | requiredTagMissing => 1
  | incorrectDataFormatForValue => 6
  | compIdProblem => 9
  | invalidMsgType => 11
  | incorrectNumInGroupCount => 16
  | other => 99

/-- `Severity`. -/
inductive Severity
  | na
  | low
  | moderate
  | high
  | fatal
  deriving DecidableEq, Repr

/-- `ValidatorErrorContext`. -/
structure ValidatorErrorContext where
  info : Bytes
  tag : ℕ
  code : ValidatorError
  deriving DecidableEq, Repr

/-- `ValidatorResult`. -/
structure ValidatorResult where
  severity : Severity := .moderate
  errors : List ValidatorErrorContext := []
  deriving DecidableEq, Repr

/-- One bit for each field of a message, in words of 64. -/
structure TagScratch where
  data : List (BitVec 64) := []
  deriving DecidableEq, Repr

namespace TagScratch

/-- `ensure_bits`, which never makes the scratch smaller. -/
def ensureBits (scratch : TagScratch) (size : ℕ) : TagScratch :=
  if scratch.data.length < size / 64 + 1 then
    ⟨scratch.data ++ List.replicate (size / 64 + 1 - scratch.data.length) 0⟩
  else scratch

/-- `clear`. -/
def clear (scratch : TagScratch) : TagScratch := ⟨scratch.data.map fun _ => 0⟩

/-- The word of the scratch at an index, 0 beyond its end. -/
def word (scratch : TagScratch) (index : ℕ) : BitVec 64 := (scratch.data[index]?).getD 0

/-- `full`: whether the first `size` bits are set. -/
def full (scratch : TagScratch) (size : ℕ) : Bool :=
  let mask : BitVec 64 := (1#64 <<< (size % 64)) - 1#64
  (List.range (size / 64)).all (fun i => scratch.word i == BitVec.allOnes 64) &&
    (size % 64 == 0 || scratch.word (size / 64) &&& mask == mask)

/-- `set`. -/
def set (scratch : TagScratch) (index : ℕ) : TagScratch :=
  ⟨scratch.data.modify (index / 64) (· ||| 1#64 <<< (index % 64))⟩

/-- `get`. -/
def get (scratch : TagScratch) (index : ℕ) : Bool :=
  (scratch.word (index / 64) &&& 1#64 <<< (index % 64)) != 0

end TagScratch

/-- `Utils::parse_int`: a whole text that is a non-negative `int`. -/
def parseInt (text : Bytes) : Option ℕ :=
  match (fromCharsSigned 32 text).whole text with
  | some (.ofNat n) => some n
  | _ => none

/-- `Validator`. -/
structure Validator where
  results : ValidatorResult := {}
  tagscratch : TagScratch := {}
  deriving DecidableEq, Repr

namespace Validator

/-- One more error at the end of the list. -/
def pushError (validator : Validator) (info : Bytes) (tag : ℕ) (code : ValidatorError) :
    Validator :=
  { validator with
    results :=
      { validator.results with errors := validator.results.errors ++ [⟨info, tag, code⟩] } }

/-- An error that ends the session. -/
def pushFatal (validator : Validator) (info : Bytes) (tag : ℕ) (code : ValidatorError) :
    Validator :=
  let pushed := validator.pushError info tag code
  { pushed with results := { pushed.results with severity := .fatal } }

/-- The field at the index has been accounted for. -/
def mark (validator : Validator) (index : ℕ) : Validator :=
  { validator with tagscratch := validator.tagscratch.set index }

/-- The group count: one entry after the other, until one fails or is empty. An entry returns
the position after it and the tags it contained, or no tags when the walk was given up. -/
def repeatEntries (entry : Validator × ℕ → (Validator × ℕ) × Option (List ℕ)) (groupTag : ℕ) :
    ℕ → Validator × ℕ → Validator × ℕ
  | 0, state => state
  | count + 1, state =>
      match entry state with
      | (next, none) => next
      | (next, some occurred) =>
          if occurred = [] then (next.1.pushError [] groupTag .incorrectNumInGroupCount, next.2)
          else repeatEntries entry groupTag count next

/-- `kMaxGroupCount`. -/
def maxGroupCount : ℕ := 32

mutual

/-- `validate_groups_` for the group schema of a count field. The second component of the state
is `curr_index`. -/
def validateGroups (message : Message) (groupTag : ℕ) (groupcnt : ℕ) (state : Validator × ℕ) :
    Option (List FieldSchema) → Validator × ℕ
  | none =>
      if groupcnt = 0 then state
      else (state.1.pushError (ascii "Missing group schema") groupTag .other, state.2)
  | some fields =>
      if groupcnt = 0 then state
      else if fields.isEmpty then
        (state.1.pushError (ascii "Missing group schema entry") groupTag .other, state.2)
      else if maxGroupCount < fields.length then
        (state.1.pushError (ascii "Unsupported group size") groupTag .other, state.2)
      else
        repeatEntries (fun state => validateEntry message state [] fields) groupTag groupcnt state

/-- One entry of a group: its fields in schema order. `occurred` are the tags seen in it. A
nested group leaves the position on the field after it, which is then skipped too. -/
def validateEntry (message : Message) (state : Validator × ℕ) (occurred : List ℕ) :
    List FieldSchema → (Validator × ℕ) × Option (List ℕ)
  | [] => (state, some occurred)
  | .mk tag type presence groupSchema :: rest =>
      match message[state.2]? with
      | none => ((state.1.pushError [] tag .incorrectNumInGroupCount, state.2), none)
      | some field =>
          if field.tag ≠ tag then
            if presence = .required then
              ((state.1.pushError [] tag .requiredTagMissing, state.2), none)
            else validateEntry message state occurred rest
          else if occurred.contains field.tag then (state, some occurred)
          else
            let marked := state.1.mark state.2
            if type = .group then
              match parseInt field.value with
              | none =>
                  ((marked.pushError [] tag .incorrectDataFormatForValue, state.2 + 1), none)
              | some groupCount =>
                  let nested := validateGroups message tag groupCount (marked, state.2 + 1)
                    groupSchema
                  validateEntry message (nested.1, nested.2 + 1) (occurred ++ [field.tag]) rest
            else if validateType field.value type then
              validateEntry message (marked, state.2 + 1) (occurred ++ [field.tag]) rest
            else ((marked.pushError [] tag .incorrectDataFormatForValue, state.2), none)

end

/-- `validate_fields_`: each field of the schema is searched for in the message. -/
def validateFields (message : Message) (validator : Validator) : List FieldSchema → Validator
  | [] => validator
  | schema :: rest =>
      match message.findIdx? (·.tag = schema.tag) with
      | some index =>
          let marked := validator.mark index
          let value := ((message[index]?).map Field.value).getD []
          if schema.type = .group then
            match parseInt value with
            | none => marked.pushError [] schema.tag .incorrectNumInGroupCount
            | some groupCount =>
                let walked := validateGroups message schema.tag groupCount (marked, index + 1)
                  schema.groupSchema
                validateFields message walked.1 rest
          else if validateType value schema.type then validateFields message marked rest
          else marked.pushError [] schema.tag .incorrectDataFormatForValue
      | none =>
          if schema.presence = .required then
            validator.pushError [] schema.tag .requiredTagMissing
          else validateFields message validator rest

/-- `DEFAULT_FIX_VERSION`. -/
def defaultFixVersion : Bytes := ascii "FIX.4.4"

/-- The first three fields are looked at by position, whatever their tags. -/
def validateHeader (validator : Validator) (view : ValidMessageView) (expectedType : Bytes)
    (params : SessionParameters) : Validator :=
  match view.message with
  | first :: second :: third :: _ =>
      if !validateType first.value .string || first.value ≠ defaultFixVersion then
        validator.pushFatal (ascii "Unsupported FIX version") 8 .other
      else if !validateType second.value .int then
        validator.pushError [] 9 .incorrectDataFormatForValue
      else if !validateType third.value .string || third.value ≠ expectedType then
        validator.pushError [] 35 .incorrectDataFormatForValue
      else if !(view.headerCache.msgSeqNumText.map (validateType · .int)).getD false then
        validator.pushFatal [] 34 .incorrectDataFormatForValue
      else if view.headerCache.senderCompId ≠ some params.targetCompId then
        validator.pushFatal (ascii "Sender CompID mismatch") 49 .compIdProblem
      else if view.headerCache.targetCompId ≠ some params.senderCompId then
        validator.pushFatal (ascii "Target CompID mismatch") 56 .compIdProblem
      else validateFields view.message validator Schema.standardHeader
  | _ => validator.pushFatal [] 8 .requiredTagMissing

/-- `validate_trailer_`. -/
def validateTrailer (validator : Validator) (view : ValidMessageView) : Validator :=
  validateFields view.message validator Schema.trailer

/-- `validate_message`. -/
def validateMessage (validator : Validator) (view : ValidMessageView)
    (params : SessionParameters) : Validator :=
  let cleared : Validator := ⟨{}, (validator.tagscratch.ensureBits view.message.length).clear⟩
  match view.headerCache.msgType with
  | none => cleared.pushError [] 35 .requiredTagMissing
  | some expectedType =>
      match Registry.get expectedType with
      | none => cleared.pushError [] 0 .invalidMsgType
      | some schema =>
          let header := cleared.validateHeader view expectedType params
          let body := validateFields view.message header schema.body
          let checked := body.validateTrailer view
          if checked.results.errors = [] && !checked.tagscratch.full view.message.length then
            checked.pushError [] 0 .invalidTagNumber
          else checked

end Validator

end FixEngine
