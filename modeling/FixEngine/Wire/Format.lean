import FixEngine.Wire.Strict

/-!
# The wire form of a message

`wireOf` is what a complete message looks like on the wire, as a function of the begin string
and the fields of its body: the form the factory has to produce. The framer cuts such a message
out in one piece and the parser reads its fields back.
-/

namespace FixEngine

open Framer (fixFirstField maxMessageSize trailerSize)
open Reference (frames frameLength acceptableLength headerDecision_of_header)

/-- A field that can be written and read back. -/
structure Field.WellFormed (field : Field) : Prop where
  tag_lt : field.tag < 10 ^ 7
  value_ne_nil : field.value ≠ []
  soh_not_mem : soh ∉ field.value

/-- `tag=value<SOH>`. -/
def fieldText (field : Field) : Bytes :=
  decimal field.tag ++ equalSign :: (field.value ++ [soh])

/-- The bytes of fields. -/
def fieldsText (fields : List Field) : Bytes := fields.flatMap fieldText

/-- A checksum padded to three digits. -/
def checksumText (sum : ℕ) : Bytes :=
  List.replicate (3 - (decimal sum).length) 48 ++ decimal sum

/-- Begin string, body length and body. -/
def frontOf (version : Bytes) (body : List Field) : Bytes :=
  fieldText ⟨8, version⟩ ++ fieldText ⟨9, decimal (fieldsText body).length⟩ ++ fieldsText body

/-- The complete message with the given body fields. -/
def wireOf (version : Bytes) (body : List Field) : Bytes :=
  frontOf version body ++ fieldText ⟨10, checksumText (byteSum (frontOf version body))⟩

/-- The begin string of the protocol version the framer looks for. -/
def fix44 : Bytes := ascii "FIX.4.4"

/-- The fields a reader gets from `wireOf fix44 body`. -/
def parsedFields (body : List Field) : Message :=
  ⟨8, fix44⟩ :: ⟨9, decimal (fieldsText body).length⟩ :: body ++
    [⟨10, checksumText (byteSum (frontOf fix44 body))⟩]

@[simp]
theorem fieldsText_nil : fieldsText [] = [] := rfl

@[simp]
theorem fieldsText_cons (first : Field) (rest : List Field) :
    fieldsText (first :: rest) = fieldText first ++ fieldsText rest := rfl

@[simp]
theorem fieldsText_append (front rest : List Field) :
    fieldsText (front ++ rest) = fieldsText front ++ fieldsText rest := by
  simp [fieldsText]

theorem length_fieldText (field : Field) :
    (fieldText field).length = (decimal field.tag).length + field.value.length + 2 := by
  simp [fieldText]
  omega

theorem byteSum_lt (text : Bytes) : byteSum text < 256 := Nat.mod_lt _ (by decide)

section Checksum

variable {sum : ℕ}

theorem length_checksumText (lt : sum < 256) : (checksumText sum).length = 3 := by
  have short : (decimal sum).length ≤ 3 := length_decimal_le (by decide) (by omega)
  simp only [checksumText, List.length_append, List.length_replicate]
  omega

theorem isDigit_of_mem_checksumText {b : UInt8} (mem : b ∈ checksumText sum) :
    isDigit b = true := by
  rcases List.mem_append.mp mem with zero | digit
  · rw [List.eq_of_mem_replicate zero]
    decide
  · exact isDigit_of_mem_decimal digit

theorem digitsValue_zeros (count : ℕ) (text : Bytes) :
    digitsValue (List.replicate count 48 ++ text) = digitsValue text := by
  induction count with
  | zero => simp
  | succ count ih => simpa [digitsValue, List.replicate_succ] using ih

@[simp]
theorem digitsValue_checksumText (sum : ℕ) : digitsValue (checksumText sum) = sum := by
  rw [checksumText, digitsValue_zeros, digitsValue_decimal]

end Checksum

/-- A byte that is no digit is not part of a number. -/
theorem not_mem_of_digits {text : Bytes} {b : UInt8} (digits : ∀ b ∈ text, isDigit b = true)
    (notDigit : isDigit b = false) : b ∉ text := fun mem => by
  simp [digits b mem] at notDigit

section WireFields

/-- Well-formed fields as wire fields. -/
def toWireFields (fields : List Field) (wellFormed : ∀ field ∈ fields, field.WellFormed) :
    List WireField :=
  fields.pmap (fun field ok => .ofTag field.tag field.value ok.tag_lt ok.value_ne_nil ok.soh_not_mem)
    wellFormed

variable {fields : List Field} (wellFormed : ∀ field ∈ fields, field.WellFormed)

theorem encodeAll_toWireFields : encodeAll (toWireFields fields wellFormed) = fieldsText fields := by
  induction fields with
  | nil => rfl
  | cons first rest ih =>
      have tail := ih fun field mem => wellFormed field (List.mem_cons_of_mem _ mem)
      rw [fieldsText_cons, ← tail]
      rfl

theorem map_field_toWireFields : (toWireFields fields wellFormed).map WireField.field = fields := by
  induction fields with
  | nil => rfl
  | cons first rest ih =>
      have tail := ih fun field mem => wellFormed field (List.mem_cons_of_mem _ mem)
      simp only [toWireFields, List.pmap_cons, List.map_cons] at tail ⊢
      rw [tail]
      simp [WireField.field, WireField.ofTag]

end WireFields

section ReadBack

variable {body : List Field}

theorem digits_bodyLength (body : List Field) :
    ∀ b ∈ decimal (fieldsText body).length, isDigit b = true :=
  fun _ mem => isDigit_of_mem_decimal mem

theorem soh_not_mem_decimal (n : ℕ) : soh ∉ decimal n :=
  not_mem_of_digits (fun _ mem => isDigit_of_mem_decimal mem) (by decide)

theorem soh_not_mem_bodyLength (body : List Field) : soh ∉ decimal (fieldsText body).length :=
  soh_not_mem_decimal _

theorem fixFirstField_eq : fixFirstField = decimal 8 ++ equalSign :: (fix44 ++ [soh]) := by decide

theorem nine_eq : ascii "9=" = decimal 9 ++ [equalSign] := by decide

theorem fieldText_checksum (text : Bytes) :
    fieldText ⟨10, text⟩ = Parser.checksumKey ++ (text ++ [soh]) := by
  have ten : Parser.checksumKey = decimal 10 ++ [equalSign] := by decide
  simp [fieldText, ten]

/-- The parser reads the fields in front of a matching checksum back. -/
theorem parse_summed {fields : List Field} (wellFormed : ∀ field ∈ fields, field.WellFormed) :
    Parser.parse (fieldsText fields ++ fieldText ⟨10, checksumText (byteSum (fieldsText fields))⟩) =
      (fields ++ [⟨10, checksumText (byteSum (fieldsText fields))⟩], []) := by
  set front := fieldsText fields with frontDef
  set sum := checksumText (byteSum front) with sumDef
  have sumDigits : ∀ b ∈ sum, isDigit b = true := fun _ mem => isDigit_of_mem_checksumText mem
  have sumLength : sum.length = 3 := length_checksumText (byteSum_lt _)
  have noEqual : equalSign ∉ sum ++ [soh] := by
    simp [not_mem_of_digits sumDigits (show isDigit equalSign = false by decide),
      show equalSign ≠ soh by decide]
  have last : rfind Parser.checksumKey (front ++ fieldText ⟨10, sum⟩) = some front.length := by
    rw [fieldText_checksum]
    exact rfind_checksumKey noEqual
  have trailer : ((front ++ fieldText ⟨10, sum⟩).drop (front.length + 3)).take 3 = sum := by
    rw [fieldText_checksum, ← List.drop_drop, List.drop_left, ← length_checksumKey,
      List.drop_left, length_checksumKey, ← sumLength, List.take_left]
  have sumRead : (fromChars 16 sum).whole sum = some (byteSum front) := by
    have lt := byteSum_lt front
    refine whole_fromChars_eq_some.mpr ⟨?_, sumDigits, ?_, digitsValue_checksumText _⟩
    · exact List.ne_nil_of_length_pos (by omega)
    · rw [sumDef, digitsValue_checksumText]
      omega
  -- The fields before the checksum cover the distance to it exactly.
  have covers := covers_encodeAll (toWireFields fields wellFormed)
  rw [encodeAll_toWireFields, ← frontDef] at covers
  have read := parseFields_encodeAll (fieldText ⟨10, sum⟩) covers (Nat.le_refl _)
  rw [encodeAll_toWireFields, map_field_toWireFields, ← frontDef] at read
  have summed : (front ++ fieldText ⟨10, sum⟩).take front.length = front := List.take_left
  simp only [Parser.parse, last, trailer, sumRead, summed, ne_eq, not_true_eq_false, if_false,
    read, if_true]

/-- The parser reads the fields of a well-formed message back. -/
theorem parse_wireOf (wellFormed : ∀ field ∈ body, field.WellFormed) :
    Parser.parse (wireOf fix44 body) = (parsedFields body, []) := by
  have whole : ∀ field ∈ (⟨8, fix44⟩ :: ⟨9, decimal (fieldsText body).length⟩ :: body : List Field),
      field.WellFormed := by
    intro field mem
    rcases List.mem_cons.mp mem with rfl | mem
    · exact ⟨by decide, by decide, by decide⟩
    rcases List.mem_cons.mp mem with rfl | mem
    · exact ⟨by norm_num, decimal_ne_nil _, soh_not_mem_bodyLength body⟩
    · exact wellFormed field mem
  have front : fieldsText (⟨8, fix44⟩ :: ⟨9, decimal (fieldsText body).length⟩ :: body) =
      frontOf fix44 body := by
    simp [frontOf]
  have read := parse_summed whole
  rw [front] at read
  exact read

theorem acceptableLength_bodyLength (fits : (fieldsText body).length ≤ maxMessageSize) :
    acceptableLength (decimal (fieldsText body).length) = true := by
  simp only [acceptableLength, digitsValue_decimal, Bool.and_eq_true, List.all_eq_true,
    decide_eq_true_eq, ne_eq]
  exact ⟨⟨decimal_ne_nil _, digits_bodyLength body⟩, fits⟩

/-- A message with a body the framer admits is cut out of whatever follows it. -/
theorem frames_wireOf_append (fits : (fieldsText body).length ≤ maxMessageSize) (later : Bytes) :
    frames (wireOf fix44 body ++ later) = wireOf fix44 body :: frames later := by
  set digits := decimal (fieldsText body).length with digitsDef
  set sum := checksumText (byteSum (frontOf fix44 body)) with sumDef
  have shape : wireOf fix44 body =
      fixFirstField ++ (ascii "9=" ++ (digits ++ soh :: (fieldsText body ++
        (Parser.checksumKey ++ (sum ++ [soh]))))) := by
    rw [wireOf, fieldText_checksum, ← sumDef]
    simp [frontOf, fixFirstField_eq, fieldText, nine_eq, digitsDef]
  have stop : frameLength digits = (wireOf fix44 body).length := by
    have sumLength : sum.length = 3 := length_checksumText (byteSum_lt _)
    have two : (ascii "9=").length = 2 := by decide
    have value : digitsValue digits = (fieldsText body).length := digitsValue_decimal _
    rw [shape]
    simp only [frameLength, value, trailerSize, List.length_append, List.length_cons,
      List.length_nil, sumLength, two, length_checksumKey]
    omega
  have decision := @headerDecision_of_header (wireOf fix44 body ++ later) _ _
    (by rw [shape, List.append_assoc, List.drop_left]; simp only [List.append_assoc,
      List.cons_append]; rfl) (soh_not_mem_bodyLength body)
    (acceptableLength_bodyLength fits)
  rw [if_neg (by rw [← digitsDef, stop]; simp), ← digitsDef, stop] at decision
  rw [Reference.frames_of_starts ⟨_, by rw [shape, List.append_assoc]⟩, decision]
  simp

end ReadBack

end FixEngine
