import FixEngine.Lib.Decimal
import FixEngine.Core.LinearBuffer
import FixEngine.Core.Ring

/-!
# The framer

`Framer` of `core/Framer.hpp` and `Framer.cpp` cuts a byte stream into message frames. It looks
for the begin string, reads the body length that must follow it, and waits until the body and
the seven bytes of the checksum field are there. Completed messages are kept as windows of
absolute positions until they are consumed; what the scan has no use for any more is discarded.
-/

namespace FixEngine

/-- The field delimiter of the wire format. -/
def soh : UInt8 := 1

/-- `FramerContextState`. -/
inductive FramerContextState
  | findingBegin
  | readingBody
  | complete
  deriving DecidableEq, Repr

/-- `FramerParseResult`, what a call of `parse_buffer` came to. -/
inductive FramerParseResult
  | queuedMessage
  | progressNoMsg
  | needMoreData
  deriving DecidableEq, Repr

/-- The absolute positions at which a message starts and ends. -/
structure MessageWindow where
  first : ℕ := 0
  last : ℕ := 0
  deriving DecidableEq, Repr, Inhabited

/-- `FramerContext`, the message whose begin string was found. -/
structure FramerContext where
  first : ℕ := 0
  last : ℕ := 0
  bodyLen : ℕ := 0
  state : FramerContextState := .findingBegin
  deriving DecidableEq, Repr

/-- `make_message_window`. -/
def makeMessageWindow (context : FramerContext) : MessageWindow := ⟨context.first, context.last⟩

/-- `Ring<MessageWindow, 1024, 0, RingPolicy::Reject>`. -/
def completedSpec : RingSpec where
  capacity := 1024
  minGrowSize := 0
  policy := .reject
  capacity_pos := by decide
  legal := by decide

/-- `Framer`. -/
structure Framer where
  context : FramerContext
  buffer : LinearBuffer UInt8
  completed : Ring MessageWindow completedSpec
  scanAbs : ℕ

namespace Framer

/-- `Fix_First_Field`, the begin string with its delimiter. -/
def fixFirstField : Bytes := ascii "8=FIX.4.4\x01"

/-- `MAX_MESSAGE_SIZE`. -/
def maxMessageSize : ℕ := 1024 * 1024

/-- `MAX_BEGIN_TO_BODYLEN_FIELD_BYTES`, which no function of the framer looks at. -/
def maxBeginToBodylenFieldBytes : ℕ := 32

/-- The length of `10=xxx<SOH>`. -/
def trailerSize : ℕ := 7

/-- The default constructor. -/
def new : Framer where
  context := {}
  buffer := .new
  completed := .new
  scanAbs := 0

/-- `has_message()`. -/
def hasMessage (framer : Framer) : Bool := decide (0 < framer.completed.size)

/-- A malformed header: the search resumes one byte after the begin string. -/
def resync (framer : Framer) : Framer × FramerParseResult :=
  ({ framer with scanAbs := framer.context.first + 1, context := {} }, .progressNoMsg)

/-- The window of the current context is complete: queue it and go on after its end. -/
def queueMessage (framer : Framer) : Framer × FramerParseResult :=
  ({ framer with
      scanAbs := framer.context.last
      completed := (framer.completed.push (makeMessageWindow framer.context)).1
      context := {} }, .queuedMessage)

/-- The body length of the text between `9=` and the next delimiter, if it is acceptable. -/
def parseBodyLength (text : Bytes) : Option ℕ :=
  match (fromChars 64 text).whole text with
  | none => none
  | some bodyLen => if maxMessageSize < bodyLen then none else some bodyLen

/-- Read `9=` and the body length after a begin string found at `beginPos` in `view`. -/
def readHeader (framer : Framer) (view : Bytes) (beginPos : ℕ) : Framer × FramerParseResult :=
  let bodyStart := beginPos + fixFirstField.length
  if view.length < bodyStart + 2 then (framer, .needMoreData)
  else if (view.drop bodyStart).take 2 ≠ ascii "9=" then framer.resync
  else
    match cut soh (view.drop (bodyStart + 2)) with
    | none => (framer, .needMoreData)
    | some (text, _) =>
        match parseBodyLength text with
        | none => framer.resync
        | some bodyLen =>
            let bodyEndPos := bodyStart + 2 + text.length
            let stop := bodyEndPos + 1 + bodyLen + trailerSize
            let reading : Framer :=
              { framer with
                context :=
                  { framer.context with
                    bodyLen := bodyLen
                    state := .readingBody
                    last := framer.buffer.readableRelToAbs stop } }
            if view.length < stop then (reading, .needMoreData) else reading.queueMessage

/-- Nothing in the buffer starts a message: keep only what may be the start of a begin string. -/
def discardGarbage (framer : Framer) (view : Bytes) : Framer × FramerParseResult :=
  let keep := min view.length (fixFirstField.length - 1)
  let buffer := framer.buffer.discardPrefix (view.length - keep)
  ({ framer with buffer := buffer, scanAbs := buffer.readableRelToAbs 0 }, .needMoreData)

/-- The part of `parse_buffer` that looks for a begin string from `relativeStart` on. -/
def findBegin (framer : Framer) (view : Bytes) (relativeStart : ℕ) :
    Framer × FramerParseResult :=
  match find fixFirstField (view.drop relativeStart) with
  | some distance =>
      let beginPos := relativeStart + distance
      let beginAbs := framer.buffer.readableRelToAbs beginPos
      { framer with
        context := { framer.context with first := beginAbs }
        scanAbs := beginAbs }.readHeader view beginPos
  | none => if framer.completed.empty then framer.discardGarbage view else (framer, .needMoreData)

/-- The part of `parse_buffer` that waits for the body whose end is known. -/
def readBody (framer : Framer) (view : Bytes) : Framer × FramerParseResult :=
  if framer.buffer.readableRelToAbs view.length < framer.context.last then (framer, .needMoreData)
  else framer.queueMessage

/-- `parse_buffer`: one step of the scan. -/
def parseBuffer (framer : Framer) : Framer × FramerParseResult :=
  let view := framer.buffer.readable
  let scanAbs := max framer.scanAbs (framer.buffer.readableRelToAbs 0)
  let framer := { framer with scanAbs := scanAbs }
  let relativeStart := framer.buffer.absToReadableRel scanAbs
  if view.length ≤ relativeStart then (framer, .needMoreData)
  else
    match framer.context.state with
    | .findingBegin => framer.findBegin view relativeStart
    | _ => framer.readBody view

/-- The loop of `append`. Every round that goes on moves the scan forward, so the number of
bytes in the buffer bounds the rounds; `append` passes more than that. -/
def parseLoop : ℕ → Framer → Framer
  | 0, framer => framer
  | rounds + 1, framer =>
      if framer.completed.full then framer
      else
        match framer.parseBuffer with
        | (next, .needMoreData) => next
        | (next, _) => parseLoop rounds next

/-- `append`. -/
def append (framer : Framer) (data : Bytes) : Framer :=
  let pushed := { framer with buffer := framer.buffer.push data }
  parseLoop (pushed.buffer.readableSize + 1) pushed

/-- `consume_message`: the first window, and everything in front of its end, is discarded. -/
def consumeMessage (framer : Framer) : Framer :=
  let earliest := framer.completed.front
  { framer with
    buffer := framer.buffer.discardPrefix (framer.buffer.absToReadableRel earliest.last)
    completed := framer.completed.popFront }

/-- `get_message`. -/
def getMessage (framer : Framer) : Bytes :=
  let earliest := framer.completed.front
  let relBegin := framer.buffer.absToReadableRel earliest.first
  let relEnd := framer.buffer.absToReadableRel earliest.last
  (framer.buffer.readable.drop relBegin).take (relEnd - relBegin)

/-- The three assertions of `get_message`, and those of the two address conversions it makes. -/
def GetMessageAsserts (framer : Framer) : Prop :=
  let earliest := framer.completed.front
  let relBegin := framer.buffer.absToReadableRel earliest.first
  let relEnd := framer.buffer.absToReadableRel earliest.last
  framer.buffer.baseAbs + framer.buffer.head ≤ earliest.first ∧
    framer.buffer.baseAbs + framer.buffer.head ≤ earliest.last ∧
    relBegin ≤ framer.buffer.readable.length ∧ relEnd ≤ framer.buffer.readable.length ∧
    relBegin ≤ relEnd

/-- `reset`. -/
def reset (framer : Framer) : Framer where
  context := {}
  buffer := framer.buffer.reset
  completed := framer.completed.clear
  scanAbs := 0

end Framer

end FixEngine
