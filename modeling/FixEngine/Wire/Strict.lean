import FixEngine.Framing.Streaming
import FixEngine.Wire.Fields

/-!
# Wire strictness

The frame boundary is decided by the body length in the framer and the position of the checksum
by a backward text search in the parser. `StrictFrame` is the form both should agree on. A frame
the parser accepts has it unless its last `10=` is not a trailer of its own: it stands inside a
field, or not exactly seven bytes before the end, or without a closing delimiter.
-/

namespace FixEngine

open Framer (fixFirstField)
open Reference (IsFrame frames)

/-- Everything of a message before its checksum field. -/
def unsigned (digits : Bytes) (body : List WireField) : Bytes :=
  fixFirstField ++ (ascii "9=" ++ (digits ++ soh :: encodeAll body))

/-- `8=FIX.4.4<SOH>9=n<SOH>`, a body of `n` bytes made of well-formed fields, and
`10=ccc<SOH>` with the byte sum of everything before it; nothing else. -/
def StrictFrame (frame : Bytes) : Prop :=
  ∃ (digits : Bytes) (body : List WireField) (checksum : Bytes),
    digits ≠ [] ∧ (∀ b ∈ digits, isDigit b = true) ∧
    digitsValue digits = (encodeAll body).length ∧
    checksum.length = 3 ∧ (∀ b ∈ checksum, isDigit b = true) ∧
    digitsValue checksum = byteSum (unsigned digits body) ∧
    frame = unsigned digits body ++ (Parser.checksumKey ++ (checksum ++ [soh]))

/-- The last `10=` of the frame is at `position`, the digits after it are the byte sum of what
precedes it, and the fields that start before it are well formed. -/
structure ChecksumMatches (frame : Bytes) (position : ℕ) : Prop where
  last : rfind Parser.checksumKey frame = some position
  nonempty : (frame.drop (position + 3)).take 3 ≠ []
  digits : ∀ b ∈ (frame.drop (position + 3)).take 3, isDigit b = true
  sum : digitsValue ((frame.drop (position + 3)).take 3) = byteSum (frame.take position)
  fields : ∃ fields next, Covers position fields ∧ frame = encodeAll fields ++ next

/-- The seven bytes from `position` on are a field of their own at the end of the frame. -/
structure IsTrailer (frame : Bytes) (position : ℕ) : Prop where
  afterDelimiter : (frame.take position).getLast? = some soh
  length_eq : position + 7 = frame.length
  delimiter : frame.getLast? = some soh

/-- A matching checksum text that is not the trailer of the frame. -/
def MisplacedChecksum (frame : Bytes) : Prop :=
  ∃ position, ChecksumMatches frame position ∧ ¬IsTrailer frame position

/-- The fields 8 and 9. -/
def beginFields (digits : Bytes) (nonempty : digits ≠ []) (noSoh : soh ∉ digits) :
    List WireField :=
  [.ofTag 8 (ascii "FIX.4.4") (by decide) (by decide) (by decide),
    .ofTag 9 digits (by decide) nonempty noSoh]

theorem unsigned_eq_encodeAll {digits : Bytes} (body : List WireField) (nonempty : digits ≠ [])
    (noSoh : soh ∉ digits) :
    unsigned digits body = encodeAll (beginFields digits nonempty noSoh ++ body) := by
  have eight : fixFirstField = decimal 8 ++ equalSign :: (ascii "FIX.4.4" ++ [soh]) := by decide
  have nine : ascii "9=" = decimal 9 ++ [equalSign] := by decide
  simp [unsigned, beginFields, WireField.encode, WireField.ofTag, eight, nine]

/-- Everything before the checksum field ends with a delimiter. -/
theorem getLast?_encodeAll {fields : List WireField} (nonempty : fields ≠ []) :
    (encodeAll fields).getLast? = some soh := by
  induction fields with
  | nil => exact absurd rfl nonempty
  | cons first rest ih =>
      by_cases last : rest = []
      · have body : first.encode = (first.tagText ++ equalSign :: first.value) ++ [soh] := by
          simp [WireField.encode]
        rw [last, encodeAll_cons, encodeAll_nil, List.append_nil, body, List.getLast?_concat]
      · simp [List.getLast?_append, ih last]

theorem length_checksumKey : Parser.checksumKey.length = 3 := by decide

/-- Three digits fit into the 16-bit checksum of the source. -/
theorem digitsValue_checksum_lt {text : Bytes} (digits : ∀ b ∈ text.take 3, isDigit b = true) :
    digitsValue (text.take 3) < 2 ^ 16 := by
  have bound := digitsValue_lt digits
  have le : 10 ^ (text.take 3).length ≤ 10 ^ 3 :=
    Nat.pow_le_pow_right (by omega) (by simp)
  omega

/-- The parser accepts the frames with a matching checksum text. -/
theorem parse_accepts_iff {frame : Bytes} :
    (Parser.parse frame).2 = [] ↔ ∃ position, ChecksumMatches frame position := by
  constructor
  · intro accepted
    simp only [Parser.parse] at accepted
    split at accepted
    · cases accepted
    next position last =>
    split at accepted
    · cases accepted
    next checksum parsed =>
    obtain ⟨nonempty, digits, -, value⟩ := whole_fromChars_eq_some.mp parsed
    split at accepted
    · cases accepted
    next sum =>
    have fieldsRead : (Parser.parseFields position position frame).2 = [] := by
      by_contra errors
      simp [errors] at accepted
    exact ⟨position, last, nonempty, digits, by rw [value, not_not.mp sum],
      exists_of_parseFields fieldsRead (Nat.le_refl _)⟩
  · rintro ⟨position, last, nonempty, digits, sum, fields, next, covers, frameEq⟩
    have parsed := whole_fromChars_eq_some.mpr
      ⟨nonempty, digits, digitsValue_checksum_lt digits, rfl⟩
    have read : (Parser.parseFields position position frame).2 = [] := by
      rw [frameEq, parseFields_encodeAll next covers (Nat.le_refl _)]
    simp only [Parser.parse, last, parsed, sum, read, ne_eq, not_true_eq_false, if_false, if_true]

/-- The fields of an accepted frame are those in front of the checksum, and the checksum. -/
theorem ChecksumMatches.parse_eq {frame : Bytes} {position : ℕ}
    (checksum : ChecksumMatches frame position) :
    ∃ fields next, Covers position fields ∧ frame = encodeAll fields ++ next ∧
      (Parser.parse frame).1 =
        fields.map WireField.field ++ [⟨10, (frame.drop (position + 3)).take 3⟩] := by
  rcases checksum.fields with ⟨fields, next, covers, frameEq⟩
  refine ⟨fields, next, covers, frameEq, ?_⟩
  have parsed := whole_fromChars_eq_some.mpr
    ⟨checksum.nonempty, checksum.digits, digitsValue_checksum_lt checksum.digits, rfl⟩
  have read : Parser.parseFields position position frame = (fields.map WireField.field, []) := by
    rw [frameEq, parseFields_encodeAll next covers (Nat.le_refl _)]
  simp only [Parser.parse, checksum.last, parsed, checksum.sum, read, ne_eq, not_true_eq_false,
    if_false, if_true]

/-- A `10=` after which no equal sign follows is the last one. -/
theorem rfind_checksumKey {front rest : Bytes} (noEqual : equalSign ∉ rest) :
    rfind Parser.checksumKey (front ++ (Parser.checksumKey ++ rest)) = some front.length := by
  apply rfind_eq_of_last
  · simp
  · simp
  · intro later lt le occurs
    -- The equal sign of a later occurrence would lie in `rest`.
    obtain ⟨tail, occursEq⟩ := occurs
    apply noEqual
    have dropEq : (front ++ (Parser.checksumKey ++ rest)).drop later =
        (Parser.checksumKey ++ rest).drop (later - front.length) := by
      rw [List.drop_append, List.drop_eq_nil_of_le (Nat.le_of_lt lt), List.nil_append]
    rw [dropEq] at occursEq
    have equalAt : ((Parser.checksumKey ++ rest).drop (later - front.length))[2]? =
        some equalSign := by
      rw [← occursEq, List.getElem?_append_left (by decide)]
      decide
    rw [List.getElem?_drop, List.getElem?_append_right (by rw [length_checksumKey]; omega)]
      at equalAt
    exact List.mem_of_getElem? equalAt

/-- Fields read up to a distance that ends right after a delimiter end there. -/
theorem Covers.length_eq {left : ℕ} {fields : List WireField} (covers : Covers left fields)
    (ends : ((encodeAll fields).take left).getLast? = some soh) :
    (encodeAll fields).length = left := by
  induction fields generalizing left with
  | nil => simp [show left = 0 from covers]
  | cons first rest ih =>
      obtain ⟨positive, coversRest⟩ := covers
      rw [encodeAll_cons] at ends ⊢
      rcases Nat.lt_or_ge first.encode.length left with longer | within
      · -- The distance reaches into the remaining fields.
        rw [List.take_append, List.take_of_length_le (Nat.le_of_lt longer),
          List.getLast?_append] at ends
        have restLe := coversRest.le
        have restEnds : ((encodeAll rest).take (left - first.encode.length)).getLast? =
            some soh := by
          cases lastByte : ((encodeAll rest).take (left - first.encode.length)).getLast? with
          | none =>
              have := congrArg List.length (List.getLast?_eq_none_iff.mp lastByte)
              simp only [List.length_take, List.length_nil] at this
              omega
          | some b => simpa [lastByte] using ends
        have := ih coversRest restEnds
        simp only [List.length_append]
        omega
      · have done : rest = [] := by
          cases rest with
          | nil => rfl
          | cons second more =>
              have := coversRest.1
              omega
        subst done
        simp only [encodeAll_nil, List.append_nil] at ends ⊢
        by_contra shorter
        -- Inside a field there is no delimiter.
        have body : first.encode =
            (first.tagText ++ equalSign :: first.value) ++ [soh] := by
          simp [WireField.encode]
        have inside : left ≤ (first.tagText ++ equalSign :: first.value).length := by
          have lenBody := congrArg List.length body
          rw [List.length_append, List.length_singleton] at lenBody
          omega
        rw [body, List.take_append_of_le_length inside] at ends
        have mem := List.mem_of_mem_take (List.mem_of_getLast? ends)
        rcases List.mem_append.mp mem with inTag | inValue
        · exact first.soh_not_mem_tagText inTag
        · rcases List.mem_cons.mp inValue with isEqual | inValue
          · exact absurd isEqual (by decide)
          · exact first.soh_not_mem_value inValue

/-- A well-formed field is read back from the start of a text in one way only. -/
theorem WireField.field_append_inj {first : WireField} {rest tagText value after : Bytes}
    (same : first.encode ++ rest = tagText ++ equalSign :: (value ++ soh :: after))
    (noEqual : equalSign ∉ tagText) (noSoh : soh ∉ value) :
    first.tagText = tagText ∧ first.value = value ∧ rest = after := by
  have text : first.encode ++ rest =
      first.tagText ++ equalSign :: (first.value ++ soh :: rest) := by
    simp [WireField.encode]
  have cutLeft := cut_append (first.value ++ soh :: rest) first.equalSign_not_mem_tagText
  rw [← text, same, cut_append _ noEqual, Option.some.injEq, Prod.mk.injEq] at cutLeft
  rcases cutLeft with ⟨tagEq, valueEq⟩
  have cutValue := cut_append rest first.soh_not_mem_value
  rw [← valueEq, cut_append _ noSoh, Option.some.injEq, Prod.mk.injEq] at cutValue
  exact ⟨tagEq.symm, cutValue.1.symm, cutValue.2.symm⟩

/-- The first two fields of a frame are its begin string and its body length. -/
theorem header_of_frame {digits rest next : Bytes} {fields : List WireField}
    (noSoh : soh ∉ digits)
    (frameEq : fixFirstField ++ (ascii "9=" ++ (digits ++ soh :: rest)) =
      encodeAll fields ++ next)
    (two : 10 < (encodeAll fields).length) :
    ∃ first second body, fields = first :: second :: body ∧
      first.tagText = ascii "8" ∧ first.value = ascii "FIX.4.4" ∧
      second.tagText = ascii "9" ∧ second.value = digits ∧ rest = encodeAll body ++ next := by
  have beginText : fixFirstField = ascii "8" ++ equalSign :: (ascii "FIX.4.4" ++ [soh]) := by
    decide
  have lengthText : ascii "9=" = ascii "9" ++ [equalSign] := by decide
  cases fields with
  | nil => simp at two
  | cons first fields =>
      have firstSame : first.encode ++ (encodeAll fields ++ next) =
          ascii "8" ++ equalSign :: (ascii "FIX.4.4" ++
            soh :: (ascii "9=" ++ (digits ++ soh :: rest))) := by
        rw [← List.append_assoc, ← encodeAll_cons, ← frameEq, beginText]
        simp
      rcases WireField.field_append_inj firstSame (by decide) (by decide) with
        ⟨firstTag, firstValue, fieldsEq⟩
      rw [encodeAll_cons, WireField.encode, firstTag, firstValue, List.length_append] at two
      cases fields with
      | nil => exact absurd two (by decide)
      | cons second body =>
          have secondSame : second.encode ++ (encodeAll body ++ next) =
              ascii "9" ++ equalSign :: (digits ++ soh :: rest) := by
            rw [← List.append_assoc, ← encodeAll_cons, fieldsEq, lengthText]
            simp
          rcases WireField.field_append_inj secondSame (by decide) noSoh with
            ⟨secondTag, secondValue, bodyEq⟩
          exact ⟨first, second, body, rfl, firstTag, firstValue, secondTag, secondValue,
            bodyEq.symm⟩

/-- The fields of a frame start with its begin string and its body length. -/
theorem fields_of_frame {digits rest next : Bytes} {fields : List WireField}
    (noSoh : soh ∉ digits)
    (frameEq : fixFirstField ++ (ascii "9=" ++ (digits ++ soh :: rest)) =
      encodeAll fields ++ next)
    (two : 10 < (encodeAll fields).length) :
    ∃ body, encodeAll fields = unsigned digits body ∧ rest = encodeAll body ++ next := by
  rcases header_of_frame noSoh frameEq two with
    ⟨first, second, body, rfl, firstTag, firstValue, secondTag, secondValue, bodyEq⟩
  have beginText : fixFirstField = ascii "8" ++ equalSign :: (ascii "FIX.4.4" ++ [soh]) := by
    decide
  have lengthText : ascii "9=" = ascii "9" ++ [equalSign] := by decide
  refine ⟨body, ?_, bodyEq⟩
  rw [encodeAll_cons, encodeAll_cons, WireField.encode, WireField.encode, firstTag, firstValue,
    secondTag, secondValue, unsigned, beginText, lengthText]
  simp

theorem isDigit_of_acceptable {digits : Bytes}
    (acceptable : Reference.acceptableLength digits = true) :
    digits ≠ [] ∧ ∀ b ∈ digits, isDigit b = true := by
  simp only [Reference.acceptableLength, ne_eq, Bool.and_eq_true, decide_eq_true_eq,
    List.all_eq_true] at acceptable
  exact acceptable.1

/-- The checksum is not found in the begin string. -/
theorem lt_position_of_isFrame {frame : Bytes} {position : ℕ} (isFrame : IsFrame frame)
    (last : rfind Parser.checksumKey frame = some position) : 10 < position := by
  rcases isFrame.header with ⟨digits, rest, frameText, -⟩
  rcases (rfind_eq_some last).1 with ⟨afterKey, keyEq⟩
  by_contra early
  have front : frame.take 11 = fixFirstField ++ ascii "9" := by
    rw [frameText]
    rfl
  have found : frame[position]? = some 49 := by
    rw [← Nat.add_zero position, ← List.getElem?_drop, ← keyEq]
    rfl
  have inside : (49 : UInt8) ∈ frame.take 11 := by
    refine List.mem_of_getElem? (i := position) ?_
    rw [List.getElem?_take_of_lt (by omega)]
    exact found
  rw [front] at inside
  exact absurd inside (by decide)

/-- A frame that is parsed without errors begins with BeginString and BodyLength. -/
theorem parse_frame {frame : Bytes} (isFrame : IsFrame frame)
    (accepted : (Parser.parse frame).2 = []) :
    ∃ digits rest, (Parser.parse frame).1 = ⟨8, ascii "FIX.4.4"⟩ :: ⟨9, digits⟩ :: rest ∧
      digits ≠ [] ∧ ∀ b ∈ digits, isDigit b = true := by
  rcases parse_accepts_iff.mp accepted with ⟨position, checksum⟩
  rcases checksum.parse_eq with ⟨fields, next, covers, frameEq, messageEq⟩
  rcases isFrame.header with ⟨digits, rest, frameText, noSoh, acceptable, -⟩
  have two : 10 < (encodeAll fields).length :=
    Nat.lt_of_lt_of_le (lt_position_of_isFrame isFrame checksum.last) covers.le
  rcases header_of_frame noSoh (frameText ▸ frameEq) two with
    ⟨first, second, body, rfl, firstTag, firstValue, secondTag, secondValue, -⟩
  have eight : digitsValue (ascii "8") = 8 := by decide
  have nine : digitsValue (ascii "9") = 9 := by decide
  refine ⟨digits, body.map WireField.field ++ [⟨10, (frame.drop (position + 3)).take 3⟩], ?_,
    isDigit_of_acceptable acceptable⟩
  rw [messageEq, List.map_cons, List.map_cons, WireField.field, WireField.field, firstTag,
    firstValue, secondTag, secondValue, eight, nine]
  rfl

/-- A frame whose matching checksum text is its trailer has the strict form. -/
theorem strictFrame_of_isTrailer {frame : Bytes} {position : ℕ} (isFrame : IsFrame frame)
    (checksum : ChecksumMatches frame position) (trailer : IsTrailer frame position) :
    StrictFrame frame := by
  obtain ⟨digits, rest, frameText, noSoh, acceptable, restLen⟩ := isFrame.header
  obtain ⟨fields, next, covers, frameEq⟩ := checksum.fields
  have two : (ascii "9=").length = 2 := by decide
  have positionLe := covers.le
  have frameLen : frame.length = 10 + (2 + (digits.length + (rest.length + 1))) := by
    rw [frameText]
    simp only [List.length_append, Reference.length_fixFirstField, two, List.length_cons]
  have trailerLen := trailer.length_eq
  have ends : ((encodeAll fields).take position).getLast? = some soh := by
    have := trailer.afterDelimiter
    rwa [frameEq, List.take_append_of_le_length positionLe] at this
  have exact_ := covers.length_eq ends
  obtain ⟨body, bodyText, restEq⟩ := fields_of_frame noSoh (frameText ▸ frameEq)
    (by rw [exact_]; simp only [Framer.trailerSize] at restLen; omega)
  have nextEq : frame.drop position = next := by
    rw [frameEq, ← exact_, List.drop_left]
  have takeEq : frame.take position = unsigned digits body := by
    rw [frameEq, ← exact_, List.take_left, bodyText]
  -- The seven bytes of the trailer.
  obtain ⟨afterKey, keyEq⟩ := (rfind_eq_some checksum.last).1
  have afterLen : afterKey.length = 4 := by
    have := congrArg List.length keyEq
    simp only [List.length_append, length_checksumKey, List.length_drop] at this
    omega
  have dropEq : frame.drop (position + 3) = afterKey := by
    rw [← List.drop_drop, ← keyEq, ← length_checksumKey, List.drop_left]
  have afterEq : afterKey = afterKey.take 3 ++ [soh] := by
    have lastByte : afterKey.getLast? = some soh := by
      have := trailer.delimiter
      rw [← List.take_append_drop position frame, List.getLast?_append, ← keyEq,
        List.getLast?_append] at this
      cases lastByte : afterKey.getLast? with
      | none =>
          have := congrArg List.length (List.getLast?_eq_none_iff.mp lastByte)
          simp only [List.length_nil] at this
          omega
      | some b => simpa [lastByte] using this
    have nonempty : afterKey ≠ [] := by
      intro empty
      simp [empty] at afterLen
    rw [List.getLast?_eq_getLast_of_ne_nil nonempty, Option.some.injEq] at lastByte
    conv_lhs => rw [← List.dropLast_append_getLast nonempty, lastByte]
    rw [List.dropLast_eq_take, afterLen]
  obtain ⟨digitsNonempty, digitsAll⟩ := isDigit_of_acceptable acceptable
  refine ⟨digits, body, afterKey.take 3, digitsNonempty, digitsAll, ?_, ?_, ?_, ?_, ?_⟩
  · have lenRest := congrArg List.length restEq
    have lenNext := congrArg List.length nextEq
    simp only [List.length_append, List.length_drop] at lenRest lenNext
    simp only [Framer.trailerSize] at restLen
    omega
  · simp [afterLen]
  · rw [← dropEq]
    exact checksum.digits
  · rw [← dropEq, ← takeEq]
    exact checksum.sum
  · rw [← afterEq, keyEq, ← takeEq, List.take_append_drop]

/-- The strict form is accepted, and its checksum is its trailer. -/
theorem StrictFrame.checksumMatches {frame : Bytes} (strict : StrictFrame frame) :
    ∃ position, ChecksumMatches frame position ∧ IsTrailer frame position := by
  obtain ⟨digits, body, checksum, digitsNonempty, digitsAll, lenEq, checksumLen, checksumAll, sum,
    rfl⟩ := strict
  have noEqual : equalSign ∉ checksum ++ [soh] := by
    intro mem
    rcases List.mem_append.mp mem with inChecksum | isSoh
    · exact absurd (checksumAll _ inChecksum) (by decide)
    · exact absurd (List.mem_singleton.mp isSoh) (by decide)
  have noSoh : soh ∉ digits := fun mem => absurd (digitsAll _ mem) (by decide)
  have fieldsEq := unsigned_eq_encodeAll body digitsNonempty noSoh
  have textEq : ((unsigned digits body ++ (Parser.checksumKey ++ (checksum ++ [soh]))).drop
      ((unsigned digits body).length + 3)).take 3 = checksum := by
    rw [← List.drop_drop, List.drop_left, ← length_checksumKey, List.drop_left,
      length_checksumKey, ← checksumLen, List.take_left]
  refine ⟨(unsigned digits body).length, ⟨rfind_checksumKey noEqual, ?_, ?_, ?_, ?_⟩, ?_, ?_, ?_⟩
  · rw [textEq]
    intro empty
    simp [empty] at checksumLen
  · rwa [textEq]
  · rw [textEq, List.take_left, sum]
  · refine ⟨_, Parser.checksumKey ++ (checksum ++ [soh]), ?_, by rw [fieldsEq]⟩
    rw [fieldsEq]
    exact covers_encodeAll _
  · rw [List.take_left, fieldsEq]
    exact getLast?_encodeAll (by simp [beginFields])
  · simp only [List.length_append, length_checksumKey, checksumLen, List.length_singleton]
  · simp [List.getLast?_append]

theorem ChecksumMatches.unique {frame : Bytes} {position other : ℕ}
    (matching : ChecksumMatches frame position) (again : ChecksumMatches frame other) :
    position = other := by
  simpa [matching.last] using again.last

/-- Every frame the framer hands out, consumed or still queued. -/
theorem isFrame_of_delivered {ops : List Framer.Op} (legal : Framer.History.fresh.Legal ops)
    {frame : Bytes}
    (delivered : frame ∈ (Framer.History.fresh.run ops).consumed ++
      (Framer.History.fresh.run ops).framer.queuedMessages) : IsFrame frame := by
  obtain ⟨discarded, tracks, -⟩ := Framer.History.sound_fresh.run legal
  exact Reference.isFrame_of_mem_frames (tracks.queued_prefix.subset delivered)

/-- On a frame cut by the framer, acceptance means the strict form exactly when the frame has
no matching checksum text elsewhere than in its trailer. -/
theorem parse_strict_iff (ops : List Framer.Op) (legal : Framer.History.fresh.Legal ops)
    (frame : Bytes)
    (delivered : frame ∈ (Framer.History.fresh.run ops).consumed ++
      (Framer.History.fresh.run ops).framer.queuedMessages) :
    ((Parser.parse frame).2 = [] ↔ StrictFrame frame) ↔ ¬MisplacedChecksum frame := by
  have isFrame := isFrame_of_delivered legal delivered
  constructor
  · rintro agree ⟨position, matching, notTrailer⟩
    have strict := agree.mp (parse_accepts_iff.mpr ⟨position, matching⟩)
    obtain ⟨other, otherMatching, trailer⟩ := strict.checksumMatches
    exact notTrailer (matching.unique otherMatching ▸ trailer)
  · intro placed
    constructor
    · intro accepted
      obtain ⟨position, matching⟩ := parse_accepts_iff.mp accepted
      by_cases trailer : IsTrailer frame position
      · exact strictFrame_of_isTrailer isFrame matching trailer
      · exact absurd ⟨position, matching, trailer⟩ placed
    · intro strict
      obtain ⟨position, matching, -⟩ := strict.checksumMatches
      exact parse_accepts_iff.mpr ⟨position, matching⟩

/-- A heartbeat whose body length is right. -/
def plainFrame : Bytes := ascii "8=FIX.4.4\x019=5\x0135=0\x0110=163\x01"

/-- A message whose body length is one too large, so that the frame takes one byte more. -/
def overlongFrame : Bytes := ascii "8=FIX.4.4\x019=6\x0135=0\x0110=164\x01X"

theorem not_misplaced_plainFrame : ¬MisplacedChecksum plainFrame := by
  rintro ⟨position, checksum, misplaced⟩
  have last : rfind Parser.checksumKey plainFrame = some 19 := by decide +kernel
  rw [checksum.last, Option.some.injEq] at last
  subst last
  exact misplaced ⟨by decide, by decide, by decide⟩

theorem parse_strict_plainFrame :
    (Parser.parse plainFrame).2 = [] ↔ StrictFrame plainFrame :=
  (parse_strict_iff [.append plainFrame, .consumeMessage]
    ⟨by simp, fun _ => by decide +kernel, trivial⟩ plainFrame (by decide +kernel)).mpr
      not_misplaced_plainFrame

/-- The byte after the checksum field is delivered with the frame and goes unnoticed. -/
theorem parse_accepts_overlongFrame :
    Framer.History.fresh.Legal [.append overlongFrame, .consumeMessage] ∧
      overlongFrame ∈
        (Framer.History.fresh.run [.append overlongFrame, .consumeMessage]).consumed ∧
      (Parser.parse overlongFrame).2 = [] ∧ ¬StrictFrame overlongFrame := by
  refine ⟨⟨by simp, fun _ => by decide +kernel, trivial⟩, by decide +kernel, by decide +kernel, ?_⟩
  intro strict
  obtain ⟨position, -, trailer⟩ := strict.checksumMatches
  exact absurd trailer.delimiter (by decide +kernel)

end FixEngine
