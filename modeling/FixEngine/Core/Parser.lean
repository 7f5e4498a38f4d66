import FixEngine.Core.Message
import FixEngine.Core.Framer

/-!
# The parser

`Parser::parse` (`Parser.cpp`): the checksum is looked up from the end of the frame and
compared with the byte sum of everything before it; then the fields that start before it are
read one by one. The source returns its result through two output vectors, the fields and the
errors; here they are a pair.
-/

namespace FixEngine

/-- `ParseError`. -/
inductive ParseError
  | noTag
  | maxTagSize
  | malformedTag
  | missingEqualSign
  | missingValue
  | failedChecksum
  | missingSoh
  deriving DecidableEq, Repr

/-- `ParseErrorInfo`: the error and the tag of the field, 0 where it has none. -/
structure ParseErrorInfo where
  tag : ℕ
  code : ParseError
  deriving DecidableEq, Repr

/-- The separator of tag and value. -/
def equalSign : UInt8 := 61

/-- The sum of the bytes modulo 256. -/
def byteSum (text : Bytes) : ℕ := (text.map UInt8.toNat).sum % 256

namespace Parser

/-- `MAX_TAG_SIZE`. -/
def maxTagSize : ℕ := 7

/-- `undefined_tag`, which is reported where no tag was read. -/
def undefinedTag : ℕ := 0

/-- The text that `parse` searches for from the end. -/
def checksumKey : Bytes := ascii "10="

/-- The tag of the text before the separator: digits of a 32-bit number and nothing else. -/
def parseTag (text : Bytes) : Option ℕ := (fromChars 32 text).whole text

/-- The field loop of `parse`. `rest` is the frame from the current position on and `left` the
distance to the checksum, which may lie inside the last field read. Every round takes at least
two bytes, so `left` rounds are enough. -/
def parseFields : ℕ → ℕ → Bytes → Message × List ParseErrorInfo
  | 0, _, _ => ([], [])
  | rounds + 1, left, rest =>
      if left = 0 then ([], [])
      else
        match cut equalSign rest with
        | none => ([], [⟨undefinedTag, .malformedTag⟩])
        | some (tagText, afterEqual) =>
            if maxTagSize < tagText.length then ([], [⟨undefinedTag, .malformedTag⟩])
            else
              match parseTag tagText with
              | none => ([], [⟨undefinedTag, .malformedTag⟩])
              | some tag =>
                  match cut soh afterEqual with
                  | none => ([], [⟨tag, .missingSoh⟩])
                  | some (value, next) =>
                      if value = [] then ([], [⟨tag, .missingValue⟩])
                      else
                        let consumed := tagText.length + 1 + value.length + 1
                        let result := parseFields rounds (left - consumed) next
                        (⟨tag, value⟩ :: result.1, result.2)

/-- `Parser::parse`: the checksum first, then the fields in front of it. -/
def parse (frame : Bytes) : Message × List ParseErrorInfo :=
  match rfind checksumKey frame with
  | none => ([], [⟨10, .failedChecksum⟩])
  | some checksumPos =>
      let checksumText := (frame.drop (checksumPos + 3)).take 3
      match (fromChars 16 checksumText).whole checksumText with
      | none => ([], [⟨10, .failedChecksum⟩])
      | some checksum =>
          if byteSum (frame.take checksumPos) ≠ checksum then ([], [⟨10, .failedChecksum⟩])
          else
            let result := parseFields checksumPos checksumPos frame
            if result.2 = [] then (result.1 ++ [⟨10, checksumText⟩], []) else result

end Parser

end FixEngine
