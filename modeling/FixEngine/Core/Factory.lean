import FixEngine.Core.Store

/-!
# Building messages

`FactoryScratch` (`FactoryScratch.cpp`) is the buffer messages are built in: fields are appended,
a ten-digit placeholder is written for the body length, and when the body is complete the real
length replaces it and the body moves left. `MessageFactory` (`core/MessageFactory.hpp`) stamps
header and trailer around the fields of each message type.

The factory of the source holds references to the session's parameters, sequence numbers and
clock; here these objects live in the factory.
-/

namespace FixEngine

/-- `FactoryScratch`, the buffer in which a message is built. -/
structure FactoryScratch where
  /-- The written cells of the buffer. -/
  buffer : Bytes := []
  bufferSize : ℕ := 64 * 1024
  position : ℕ := 0
  bodyLengthOffset : ℕ := 0
  bodyLengthDigitSize : ℕ := 10
  checksumOffset : ℕ := 0
  deriving DecidableEq, Repr

namespace FactoryScratch

/-- `min_grow_size`. -/
def minGrowSize : ℕ := 1024

/-- `reset`, which leaves the buffer and its size. -/
def reset (scratch : FactoryScratch) : FactoryScratch :=
  { scratch with
    bodyLengthOffset := 0
    position := 0
    bodyLengthDigitSize := 10
    checksumOffset := 0 }

/-- `grow`: a larger buffer that starts with what was written. -/
def grow (scratch : FactoryScratch) (extra : ℕ) : FactoryScratch :=
  { scratch with
    buffer := scratch.buffer.take scratch.position
    bufferSize := scratch.bufferSize + extra }

/-- `add_string`, with room made first. -/
def addString (scratch : FactoryScratch) (text : Bytes) : FactoryScratch :=
  let roomy :=
    if scratch.bufferSize < scratch.position + text.length then
      scratch.grow (max (scratch.position + text.length - scratch.bufferSize) minGrowSize)
    else scratch
  { roomy with
    buffer := memcpy roomy.buffer roomy.position text
    position := roomy.position + text.length }

/-- `add_char`. -/
def addChar (scratch : FactoryScratch) (c : UInt8) : FactoryScratch :=
  let roomy :=
    if scratch.bufferSize < scratch.position + 1 then scratch.grow minGrowSize else scratch
  { roomy with
    buffer := memcpy roomy.buffer roomy.position [c]
    position := roomy.position + 1 }

/-- `add_int`: the decimal text of `to_chars`. -/
def addInt (scratch : FactoryScratch) (value : ℤ) : FactoryScratch :=
  scratch.addString (toChars value)

/-- `add_equal_sign`. -/
def addEqualSign (scratch : FactoryScratch) : FactoryScratch := scratch.addChar equalSign

/-- `add_soh`. -/
def addSoh (scratch : FactoryScratch) : FactoryScratch := scratch.addChar soh

/-- `add_field`: the tag, the value and their delimiters. -/
def addField (scratch : FactoryScratch) (tag : ℤ) (value : Bytes) : FactoryScratch :=
  (((scratch.addInt tag).addEqualSign).addString value).addSoh

/-- `count` zero digits. -/
def addZeros (scratch : FactoryScratch) : ℕ → FactoryScratch
  | 0 => scratch
  | count + 1 => (scratch.addChar 48).addZeros count

/-- `add_body_length_placeholder`: zeros that `insert_body_length` writes over. -/
def addBodyLengthPlaceholder (scratch : FactoryScratch) : FactoryScratch :=
  let labelled := (scratch.addInt 9).addEqualSign
  let marked := { labelled with bodyLengthOffset := labelled.position }
  (marked.addZeros marked.bodyLengthDigitSize).addSoh

/-- `compute_body_length`: what was written after the placeholder and its delimiter. -/
def computeBodyLength (scratch : FactoryScratch) : ℕ :=
  scratch.position - (scratch.bodyLengthOffset + scratch.bodyLengthDigitSize + 1)

/-- `compute_checksum`, the byte sum of everything before the checksum field. -/
def computeChecksum (scratch : FactoryScratch) : ℕ :=
  byteSum (scratch.buffer.take scratch.checksumOffset)

/-- `insert_body_length`: the digits replace the placeholder and the rest moves up to them. -/
def insertBodyLength (scratch : FactoryScratch) : FactoryScratch :=
  let text := decimal scratch.computeBodyLength
  let written := memcpy scratch.buffer scratch.bodyLengthOffset text
  let source := scratch.bodyLengthOffset + scratch.bodyLengthDigitSize
  let moved := memcpy written (scratch.bodyLengthOffset + text.length)
    ((written.drop source).take (scratch.position - source))
  { scratch with
    buffer := moved
    position := scratch.position + text.length - scratch.bodyLengthDigitSize
    bodyLengthDigitSize := text.length }

/-- `insert_checksum`: the field with three digits. -/
def insertChecksum (scratch : FactoryScratch) : FactoryScratch :=
  let marked := { scratch with checksumOffset := scratch.position }
  let text := decimal marked.computeChecksum
  let labelled := (marked.addString (ascii "10")).addEqualSign
  ((labelled.addZeros (3 - text.length)).addString text).addSoh

/-- The copy of `edit_window`; its assertions are `EditWindowAsserts`. -/
def editWindow (scratch : FactoryScratch) (offset length : ℕ) (newData : Bytes) :
    FactoryScratch :=
  { scratch with buffer := memcpy scratch.buffer offset (newData.take length) }

/-- The assertions of `edit_window`. -/
def EditWindowAsserts (scratch : FactoryScratch) (offset length : ℕ) (newData : Bytes) : Prop :=
  newData.length = length ∧ offset + length ≤ scratch.position

/-- `get_buffer_view`. -/
def getBufferView (scratch : FactoryScratch) : Bytes := scratch.buffer.take scratch.position

end FactoryScratch

/-- The session parameters the engine reads. -/
structure SessionParameters where
  fixVersion : Bytes := ascii "FIX.4.4"
  senderCompId : Bytes := ascii "test_sender"
  targetCompId : Bytes := ascii "test_target"
  heartBeatInt : ℕ := 30
  encryptMethod : ℤ := 0
  initiatorResetOnLogon : Bool := false
  acceptorResetOnLogon : Bool := true
  deriving DecidableEq, Repr

/-- `SeqProvider`: the next expected inbound and the next outbound number, 64-bit counters. -/
structure SeqProvider where
  nextIn : ℕ := 1
  nextOut : ℕ := 1
  deriving DecidableEq, Repr

namespace SeqProvider

/-- `update_in`. -/
def updateIn (provider : SeqProvider) (seqNo : ℕ) : SeqProvider :=
  { provider with nextIn := seqNo % word64 }

/-- `update_out`. -/
def updateOut (provider : SeqProvider) (seqNo : ℕ) : SeqProvider :=
  { provider with nextOut := seqNo % word64 }

/-- `reset`. -/
def reset (_ : SeqProvider) : SeqProvider := ⟨1, 1⟩

/-- `acceptor_reset`: the peer's Logon has used number 1 already. -/
def acceptorReset (_ : SeqProvider) : SeqProvider := ⟨2, 1⟩

end SeqProvider

/-- A clock as the factory template requires it, through the texts its calls return one after the
other. Time texts are non-empty, free of delimiters and all of one length. -/
structure Clock where
  times : ℕ → Bytes
  calls : ℕ
  times_ne_nil : ∀ n, times n ≠ []
  soh_not_mem_times : ∀ n, soh ∉ times n
  length_times : ∀ m n, (times m).length = (times n).length

namespace Clock

/-- `now_fix`, the text of the next reading of the clock. -/
def nowFix (clock : Clock) : Bytes := clock.times clock.calls

/-- The clock after a reading. -/
def tick (clock : Clock) : Clock := { clock with calls := clock.calls + 1 }

/-- `Fix::Clock`, whose `now_fix` always returns `Now`. -/
def standard : Clock where
  times := fun _ => ascii "Now"
  calls := 0
  times_ne_nil := fun _ => by decide
  soh_not_mem_times := fun _ => by decide
  length_times := fun _ _ => rfl

end Clock

/-- `MessageFactory`, with what it refers to in the session. -/
structure MessageFactory where
  scratch : FactoryScratch
  params : SessionParameters
  seqProvider : SeqProvider
  clock : Clock

namespace MessageFactory

/-- A call of the scratch's `add_field`. -/
def addField (factory : MessageFactory) (field : Field) : MessageFactory :=
  { factory with scratch := factory.scratch.addField field.tag field.value }

/-- The clock is read once for a SendingTime (or OrigSendingTime) field. -/
def addTime (factory : MessageFactory) (tag : ℕ) : MessageFactory :=
  { factory.addField ⟨tag, factory.clock.nowFix⟩ with clock := factory.clock.tick }

/-- The first two fields of every message: the version and the placeholder of the body length. -/
def addBegin (factory : MessageFactory) : MessageFactory :=
  { factory with
    scratch :=
      (factory.scratch.reset.addField 8 factory.params.fixVersion).addBodyLengthPlaceholder }

/-- `stamp_header_` with the MsgSeqNum to use, after the scratch buffer was reset. -/
def addHeader (factory : MessageFactory) (type : Bytes) (seqNum : ℕ) : MessageFactory :=
  let begun := factory.addBegin
  let typed := begun.addField ⟨35, type⟩
  let numbered := typed.addField ⟨34, toChars (toInt64 seqNum)⟩
  let sender := numbered.addField ⟨49, factory.params.senderCompId⟩
  let target := sender.addField ⟨56, factory.params.targetCompId⟩
  target.addTime 52

/-- `stamp_header_`: the header with the next outbound number, which is used up. -/
def stampHeader (factory : MessageFactory) (type : Bytes) : MessageFactory :=
  let stamped := factory.addHeader type factory.seqProvider.nextOut
  { stamped with
    seqProvider := stamped.seqProvider.updateOut (stamped.seqProvider.nextOut + 1) }

/-- `stamp_trailer_`. -/
def stampTrailer (factory : MessageFactory) : MessageFactory :=
  { factory with scratch := factory.scratch.insertBodyLength.insertChecksum }

/-- Header, fields, trailer: the shape of every builder but the two used for resends. -/
def build (factory : MessageFactory) (type : Bytes) (fields : List Field) :
    Bytes × MessageFactory :=
  let built := (fields.foldl addField (factory.stampHeader type)).stampTrailer
  (built.scratch.getBufferView, built)

/-- `logon`. -/
def logon (factory : MessageFactory) (heartbeatOverride : ℤ) (echoReset : Bool) :
    Bytes × MessageFactory :=
  factory.build (ascii "A")
    [⟨98, toChars factory.params.encryptMethod⟩, ⟨141, ascii (if echoReset then "Y" else "N")⟩,
      ⟨108, toChars heartbeatOverride⟩]

/-- `heart_beat`, with the TestReqID it answers unless that is empty. -/
def heartBeat (factory : MessageFactory) (testReqId : Bytes) : Bytes × MessageFactory :=
  factory.build (ascii "0") (if testReqId = [] then [] else [⟨112, testReqId⟩])

/-- `test_request`. -/
def testRequest (factory : MessageFactory) (id : Bytes) : Bytes × MessageFactory :=
  factory.build (ascii "1") [⟨112, id⟩]

/-- `resend_request`: both numbers are written as signed ones. -/
def resendRequest (factory : MessageFactory) (beginSeqNo endSeqNo : ℕ) :
    Bytes × MessageFactory :=
  factory.build (ascii "2")
    [⟨7, toChars (toInt64 beginSeqNo)⟩, ⟨16, toChars (toInt64 endSeqNo)⟩]

/-- `sequence_reset`. -/
def sequenceReset (factory : MessageFactory) (newSeqNo : ℕ) (gapfill : Bool) :
    Bytes × MessageFactory :=
  factory.build (ascii "4")
    ((if gapfill then [⟨123, ascii "Y"⟩] else []) ++ [⟨36, toChars (toInt64 newSeqNo)⟩])

/-- `logout`, whose text is left out when it is empty. -/
def logout (factory : MessageFactory) (text : Bytes) : Bytes × MessageFactory :=
  factory.build (ascii "5") (if text = [] then [] else [⟨58, text⟩])

/-- `reject`, whose RefTagID is left out when it is 0 and its text when it is empty. -/
def reject (factory : MessageFactory) (refSeqNum reason tag : ℕ) (text : Bytes) :
    Bytes × MessageFactory :=
  factory.build (ascii "3")
    ([⟨45, toChars (toInt64 refSeqNum)⟩] ++ (if tag ≠ 0 then [⟨371, toChars tag⟩] else []) ++
      [⟨373, toChars reason⟩] ++ (if text = [] then [] else [⟨58, text⟩]))

/-- `Message::Custom::MsgType`. -/
def customType : Bytes := ascii "cu"

/-- `custom_message`. -/
def customMessage (factory : MessageFactory) (payload : Bytes) : Bytes × MessageFactory :=
  factory.build customType [⟨9250, payload⟩]

/-- `MsgType` keeps at most eight characters of the type the application gives. -/
def fromApp (factory : MessageFactory) (message : Message) (msgType : Bytes) :
    Bytes × MessageFactory :=
  factory.build (msgType.take 8) message

/-- A gap fill carries the number of the first message it replaces and moves no counter. -/
def sequenceResetGapFill (factory : MessageFactory) (msgSeqNum newSeqNo : ℕ) :
    Bytes × MessageFactory :=
  let header := factory.addHeader (ascii "4") msgSeqNum
  let body := (header.addField ⟨123, ascii "Y"⟩).addField ⟨36, toChars (toInt64 newSeqNo)⟩
  let flagged := body.addField ⟨43, ascii "Y"⟩
  let built := (flagged.addTime 122).stampTrailer
  (built.scratch.getBufferView, built)

/-- The position after the body length field of a complete message. -/
def getMsgBodyOffset (wire : Bytes) : ℕ :=
  let lengthPos := (find (ascii "9=") wire).getD 0
  lengthPos + ((cut soh (wire.drop lengthPos)).map fun parts => parts.1.length).getD 0 + 1

/-- The part of a complete message between the body length and the checksum. -/
def getMsgBody (wire : Bytes) : Bytes :=
  let start := getMsgBodyOffset wire
  (wire.drop start).take ((rfind Parser.checksumKey wire).getD 0 - start)

/-- Where a patch point of the stored wire lies in the scratch buffer. -/
def rebase (positionAfterBodyLength : ℕ) (off : ℤ) (bodyOffset : ℕ) : ℕ :=
  ((positionAfterBodyLength + off - bodyOffset) % word64).toNat

/-- Write `value` over a patch point, or append it as a field when the wire had none. -/
def patch (factory : MessageFactory) (positionAfterBodyLength bodyOffset : ℕ) (tag : ℕ)
    (off : ℤ) (len : ℕ) (value : Bytes) : MessageFactory :=
  if off = -1 then factory.addField ⟨tag, value⟩
  else
    { factory with
      scratch :=
        factory.scratch.editWindow (rebase positionAfterBodyLength off bodyOffset) len value }

/-- `regenerate_message`: the stored body is copied, and its header values are edited in place. -/
def regenerateMessage (factory : MessageFactory) (originalWire : Bytes) (index : MsgIndex) :
    Bytes × MessageFactory :=
  let begun := factory.addBegin
  let positionAfterBodyLength := begun.scratch.position
  let bodyOffset := getMsgBodyOffset originalWire
  let copied := { begun with scratch := begun.scratch.addString (getMsgBody originalWire) }
  let origTime := (originalWire.drop (index.off52 % word64).toNat).take index.len52
  let dup := copied.patch positionAfterBodyLength bodyOffset 43 index.off43 index.len43
    (ascii "Y")
  let timed := dup.patch positionAfterBodyLength bodyOffset 122 index.off122 index.len122 origTime
  let stamped : MessageFactory :=
    { timed with
      scratch := timed.scratch.editWindow
        (rebase positionAfterBodyLength index.off52 bodyOffset) index.len52 timed.clock.nowFix
      clock := timed.clock.tick }
  let built := stamped.stampTrailer
  (built.scratch.getBufferView, built)

end MessageFactory

end FixEngine
