import FixEngine.Core.Parser

/-!
# Fields on the wire

A `WireField` is a field as it is written, `tag=value<SOH>`, with a tag of one to seven digits
and a non-empty value without delimiter. The parser's field loop accepts exactly the
concatenations of such fields, read until the distance to the checksum is covered.
-/

namespace FixEngine

/-- A well-formed field as it is written on the wire. -/
structure WireField where
  tagText : Bytes
  value : Bytes
  tagText_ne_nil : tagText ≠ []
  tagText_length_le : tagText.length ≤ Parser.maxTagSize
  tagText_digits : ∀ b ∈ tagText, isDigit b = true
  value_ne_nil : value ≠ []
  soh_not_mem_value : soh ∉ value

namespace WireField

/-- The bytes of a field. -/
def encode (wireField : WireField) : Bytes :=
  wireField.tagText ++ equalSign :: (wireField.value ++ [soh])

/-- The field a reader gets. -/
def field (wireField : WireField) : Field := ⟨digitsValue wireField.tagText, wireField.value⟩

theorem length_encode (wireField : WireField) :
    wireField.encode.length = wireField.tagText.length + 1 + wireField.value.length + 1 := by
  simp only [encode, List.length_append, List.length_cons, List.length_nil]
  omega

theorem length_encode_pos (wireField : WireField) : 0 < wireField.encode.length := by
  rw [length_encode]
  omega

theorem equalSign_not_mem_tagText (wireField : WireField) : equalSign ∉ wireField.tagText := by
  intro mem
  exact absurd (wireField.tagText_digits _ mem) (by decide)

theorem soh_not_mem_tagText (wireField : WireField) : soh ∉ wireField.tagText := by
  intro mem
  exact absurd (wireField.tagText_digits _ mem) (by decide)

/-- Seven digits fit into the 32-bit tags of the source. -/
theorem digitsValue_tagText_lt (wireField : WireField) :
    digitsValue wireField.tagText < 2 ^ 32 := by
  have bound := digitsValue_lt wireField.tagText_digits
  have le : 10 ^ wireField.tagText.length ≤ 10 ^ 7 :=
    Nat.pow_le_pow_right (by omega) wireField.tagText_length_le
  omega

theorem parseTag_tagText (wireField : WireField) :
    Parser.parseTag wireField.tagText = some (digitsValue wireField.tagText) :=
  whole_fromChars_eq_some.mpr
    ⟨wireField.tagText_ne_nil, wireField.tagText_digits, wireField.digitsValue_tagText_lt, rfl⟩

/-- A field written with the decimal text of its tag. -/
def ofTag (tag : ℕ) (value : Bytes) (tag_lt : tag < 10 ^ 7) (value_ne_nil : value ≠ [])
    (soh_not_mem : soh ∉ value) : WireField where
  tagText := decimal tag
  value := value
  tagText_ne_nil := decimal_ne_nil tag
  tagText_length_le := length_decimal_le (by decide) tag_lt
  tagText_digits := fun _ mem => isDigit_of_mem_decimal mem
  value_ne_nil := value_ne_nil
  soh_not_mem_value := soh_not_mem

end WireField

/-- The concatenation of the fields. -/
def encodeAll (fields : List WireField) : Bytes := fields.flatMap WireField.encode

@[simp]
theorem encodeAll_nil : encodeAll [] = [] := rfl

@[simp]
theorem encodeAll_cons (first : WireField) (rest : List WireField) :
    encodeAll (first :: rest) = first.encode ++ encodeAll rest := rfl

@[simp]
theorem encodeAll_append (front rest : List WireField) :
    encodeAll (front ++ rest) = encodeAll front ++ encodeAll rest := by
  simp [encodeAll]

/-- Reading the fields one after the other covers a distance of `left` bytes: the last field
starts before that distance and ends at or after it. -/
def Covers : ℕ → List WireField → Prop
  | left, [] => left = 0
  | left, first :: rest => 0 < left ∧ Covers (left - first.encode.length) rest

theorem Covers.le {left : ℕ} {fields : List WireField} (covers : Covers left fields) :
    left ≤ (encodeAll fields).length := by
  induction fields generalizing left with
  | nil => simp [show left = 0 from covers]
  | cons first rest ih =>
      have := ih covers.2
      simp only [encodeAll_cons, List.length_append]
      omega

theorem covers_encodeAll (fields : List WireField) : Covers (encodeAll fields).length fields := by
  induction fields with
  | nil => rfl
  | cons first rest ih =>
      have := first.length_encode_pos
      refine ⟨?_, ?_⟩
      · simp only [encodeAll_cons, List.length_append]
        omega
      · simpa using ih

/-- The field loop reads well-formed fields back. -/
theorem parseFields_encodeAll {rounds left : ℕ} {fields : List WireField} (next : Bytes)
    (covers : Covers left fields) (enough : left ≤ rounds) :
    Parser.parseFields rounds left (encodeAll fields ++ next) =
      (fields.map WireField.field, []) := by
  induction fields generalizing rounds left with
  | nil =>
      have zero : left = 0 := covers
      cases rounds <;> simp [Parser.parseFields, zero]
  | cons first rest ih =>
      obtain ⟨positive, coversRest⟩ := covers
      obtain ⟨rounds, rfl⟩ : ∃ n, rounds = n + 1 := ⟨rounds - 1, by omega⟩
      have text : encodeAll (first :: rest) ++ next =
          first.tagText ++ equalSign :: (first.value ++ soh :: (encodeAll rest ++ next)) := by
        simp [WireField.encode]
      have shorter := first.length_encode_pos
      have tagFits : ¬Parser.maxTagSize < first.tagText.length :=
        Nat.not_lt.mpr first.tagText_length_le
      have read := @ih rounds _ coversRest (by omega)
      rw [text]
      simp only [Parser.parseFields, Nat.ne_of_gt positive, if_false,
        cut_append _ first.equalSign_not_mem_tagText, tagFits, first.parseTag_tagText,
        cut_append _ first.soh_not_mem_value, first.value_ne_nil, ← first.length_encode,
        read, List.map_cons, WireField.field]

/-- What the field loop reads without error is a sequence of well-formed fields. -/
theorem exists_of_parseFields {rounds left : ℕ} {rest : Bytes}
    (accepted : (Parser.parseFields rounds left rest).2 = []) (enough : left ≤ rounds) :
    ∃ fields next, Covers left fields ∧ rest = encodeAll fields ++ next := by
  induction rounds generalizing left rest with
  | zero => exact ⟨[], rest, by simpa [Covers] using enough, rfl⟩
  | succ rounds ih =>
      simp only [Parser.parseFields] at accepted
      split at accepted
      · next zero => exact ⟨[], rest, zero, rfl⟩
      next positive =>
      split at accepted
      · cases accepted
      next tagText afterEqual foundEqual =>
      split at accepted
      · cases accepted
      next tagFits =>
      split at accepted
      · cases accepted
      next tag parsedTag =>
      split at accepted
      · cases accepted
      next value next foundSoh =>
      split at accepted
      · cases accepted
      next valueNonempty =>
      obtain ⟨tagNonempty, tagDigits, -, -⟩ := whole_fromChars_eq_some.mp parsedTag
      obtain ⟨rfl, -⟩ := cut_eq_some.mp foundEqual
      obtain ⟨rfl, sohFree⟩ := cut_eq_some.mp foundSoh
      let first : WireField :=
        ⟨tagText, value, tagNonempty, Nat.not_lt.mp tagFits, tagDigits, valueNonempty, sohFree⟩
      obtain ⟨fields, tail, covers, restEq⟩ := ih accepted (by omega)
      refine ⟨first :: fields, tail, ⟨by omega, ?_⟩, ?_⟩
      · rw [first.length_encode]
        exact covers
      · simp [restEq, first, WireField.encode]

end FixEngine
