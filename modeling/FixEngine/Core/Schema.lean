import FixEngine.Core.Factory
import Mathlib.Data.List.Sort

/-!
# Message schemas

The field schemas of `schema/Field.hpp`, the tables of `message/`, and the registry that finds
the schema of a message type by binary search (`schema/Registry.hpp`).
-/

namespace FixEngine

/-- `FieldType`. -/
inductive FieldType
  | int
  | string
  | boolean
  | float
  | double
  | char
  | group
  deriving DecidableEq, Repr

/-- `FieldPresence`. -/
inductive FieldPresence
  | required
  | optional
  | conditional
  deriving DecidableEq, Repr

/-- `FieldSchema` with its `GroupSchema`, which is absent (a null pointer) for plain fields. -/
inductive FieldSchema
  | mk (tag : ℕ) (type : FieldType) (presence : FieldPresence)
      (groupSchema : Option (List FieldSchema))

namespace FieldSchema

/-- The tag of the field. -/
def tag : FieldSchema → ℕ
  | mk tag _ _ _ => tag

/-- The type its value must have. -/
def type : FieldSchema → FieldType
  | mk _ type _ _ => type

/-- Whether a message must have it. -/
def presence : FieldSchema → FieldPresence
  | mk _ _ presence _ => presence

/-- The fields of an entry, where the field counts the entries of a group. -/
def groupSchema : FieldSchema → Option (List FieldSchema)
  | mk _ _ _ groupSchema => groupSchema

/-- An entry of a schema table without group. -/
def plain (tag : ℕ) (type : FieldType) (presence : FieldPresence) : FieldSchema :=
  mk tag type presence none

/-- Induction over the fields of a schema and of the groups in it. -/
theorem lists_induction {motive : List FieldSchema → Prop} (nil : motive [])
    (cons : ∀ tag type presence groupSchema rest,
      (∀ fields, groupSchema = some fields → motive fields) → motive rest →
        motive (mk tag type presence groupSchema :: rest)) (schema : List FieldSchema) :
    motive schema := by
  refine @FieldSchema.rec_2
    (fun schema => ∀ fields, schema.groupSchema = some fields → motive fields)
    (fun group => ∀ fields, group = some fields → motive fields) motive ?_ ?_ ?_ ?_ ?_ schema
  · intro tag type presence groupSchema nested
    exact nested
  · intro fields none
    cases none
  · intro fields holds found same
    rw [← Option.some.inj same]
    exact holds
  · exact nil
  · rintro ⟨tag, type, presence, groupSchema⟩ rest nested later
    exact cons tag type presence groupSchema rest nested later

end FieldSchema

section Types

/-- The position of the first digit: one sign may precede it. -/
def firstNumIdx : Bytes → ℕ
  | 43 :: _ => 1
  | 45 :: _ => 1
  | _ => 0

/-- `is_int_type`: digits, after a sign or none. -/
def isIntType (value : Bytes) : Bool :=
  let digits := value.drop (firstNumIdx value)
  digits ≠ [] && digits.all isDigit

/-- `is_boolean_type`. -/
def isBooleanType (value : Bytes) : Bool := value = ascii "Y" || value = ascii "N"

/-- `is_char_type`. -/
def isCharType (value : Bytes) : Bool := value.length == 1

/-- The rest of a floating point number: digits and at most one dot. -/
def isFraction (singleDot : Bool) : Bytes → Bool
  | [] => true
  | b :: rest =>
      if b = 46 && !singleDot then isFraction true rest
      else isDigit b && isFraction singleDot rest

/-- A sign with nothing after it, where the source reads past the text, is refused. -/
def isDoubleType (value : Bytes) : Bool :=
  match value.drop (firstNumIdx value) with
  | [] => false
  | b :: rest => isDigit b && isFraction false rest

/-- `Validator::validate_type_`. -/
def validateType (value : Bytes) : FieldType → Bool
  | .group => isIntType value
  | .int => isIntType value
  | .string => true
  | .boolean => isBooleanType value
  | .float => isDoubleType value
  | .double => isDoubleType value
  | .char => isCharType value

end Types

namespace Schema

open FieldSchema (plain)

/-- The entry of the group NoHops. -/
def group627 : List FieldSchema :=
  [plain 628 .string .optional, plain 629 .string .optional, plain 630 .int .optional]

/-- The standard header. -/
def standardHeader : List FieldSchema :=
  [plain 8 .string .required, plain 9 .int .required, plain 35 .string .required,
    plain 49 .string .required, plain 56 .string .required, plain 34 .int .required,
    plain 52 .string .required, plain 115 .string .optional, plain 128 .string .optional,
    plain 90 .int .optional, plain 91 .string .optional, plain 50 .string .optional,
    plain 142 .string .optional, plain 57 .string .optional, plain 143 .string .optional,
    plain 116 .string .optional, plain 144 .string .optional, plain 129 .string .optional,
    plain 145 .string .optional, plain 43 .string .optional, plain 97 .boolean .optional,
    plain 122 .string .optional, plain 212 .int .optional, plain 213 .string .optional,
    plain 347 .string .optional, plain 369 .int .optional,
    .mk 627 .group .optional (some group627)]

/-- The trailer. -/
def trailer : List FieldSchema :=
  [plain 10 .int .required, plain 83 .string .optional, plain 93 .int .optional]

/-- The entry of the group NoMsgTypes. -/
def group384 : List FieldSchema :=
  [plain 372 .string .required, plain 385 .char .required]

/-- The body of a Logon. -/
def logon : List FieldSchema :=
  [plain 98 .int .required, plain 108 .int .required, plain 141 .boolean .optional,
    plain 95 .int .optional, plain 96 .string .optional, plain 553 .string .optional,
    plain 554 .string .optional, plain 789 .int .optional, plain 383 .int .optional,
    .mk 384 .group .optional (some group384), plain 464 .boolean .optional]

/-- The body of a Heartbeat. -/
def heartbeat : List FieldSchema := [plain 112 .string .optional]

/-- The body of a TestRequest. -/
def testRequest : List FieldSchema := [plain 112 .string .required]

/-- The body of a SequenceReset. -/
def sequenceReset : List FieldSchema := [plain 36 .int .required, plain 123 .boolean .optional]

/-- The body of a Logout. -/
def logout : List FieldSchema :=
  [plain 58 .string .optional, plain 354 .int .optional, plain 355 .string .optional]

/-- The body of a ResendRequest. -/
def resendRequest : List FieldSchema := [plain 7 .int .required, plain 16 .int .required]

/-- The body of a Reject. -/
def reject : List FieldSchema :=
  [plain 45 .int .required, plain 371 .int .optional, plain 372 .string .optional,
    plain 373 .int .optional, plain 58 .string .optional, plain 354 .int .optional,
    plain 355 .string .optional]

/-- The body of a Custom message. -/
def custom : List FieldSchema := [plain 9250 .string .required]

end Schema

/-- `MessageSchema`. -/
structure MessageSchema where
  msgType : Bytes
  body : List FieldSchema

namespace Registry

/-- The schemas of the registry, in the order in which they are listed. -/
def messageSchemas : List MessageSchema :=
  [⟨ascii "A", Schema.logon⟩, ⟨ascii "0", Schema.heartbeat⟩, ⟨ascii "1", Schema.testRequest⟩,
    ⟨ascii "4", Schema.sequenceReset⟩, ⟨ascii "5", Schema.logout⟩,
    ⟨ascii "2", Schema.resendRequest⟩, ⟨ascii "3", Schema.reject⟩,
    ⟨MessageFactory.customType, Schema.custom⟩]

/-- The order of string views. -/
def textLt : Bytes → Bytes → Bool
  | _, [] => false
  | [], _ :: _ => true
  | a :: rest, b :: rest' => if a = b then textLt rest rest' else a < b

/-- `sorted_indices` with the schemas they stand for. -/
def sortedSchemas : List MessageSchema :=
  messageSchemas.insertionSort fun a b => textLt b.msgType a.msgType = false

/-- The first position in `[left, right)` whose key is not below the type, with a bound on the
halvings. -/
def lowerBound (messageType : Bytes) : ℕ → ℕ → ℕ → ℕ
  | 0, left, _ => left
  | rounds + 1, left, right =>
      if left < right then
        let mid := left + (right - left) / 2
        if ((sortedSchemas[mid]?).map fun schema => textLt schema.msgType messageType).getD false
        then lowerBound messageType rounds (mid + 1) right
        else lowerBound messageType rounds left mid
      else left

/-- `Registry::get`, a binary search in the sorted schemas. -/
def get (messageType : Bytes) : Option MessageSchema :=
  let left := lowerBound messageType sortedSchemas.length 0 sortedSchemas.length
  match sortedSchemas[left]? with
  | some schema => if schema.msgType = messageType then some schema else none
  | none => none

theorem msgType_of_get {messageType : Bytes} {schema : MessageSchema}
    (found : get messageType = some schema) :
    schema.msgType = messageType ∧ schema ∈ sortedSchemas := by
  simp only [get] at found
  split at found
  · next candidate atLeft =>
      split at found
      · next same =>
          cases found
          exact ⟨same, List.mem_of_getElem? atLeft⟩
      · cases found
  · cases found

end Registry

end FixEngine
