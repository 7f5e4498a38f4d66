import FixEngine.Lib.Decimal

/-!
# Messages

A parsed message is a list of fields, each a tag and a value (`message/GenericMessage.hpp`).
`HeaderCache` keeps the header values the session asks for; like `make_valid_message_view`
(`Message.cpp`) it is filled in one pass over the fields, so the last occurrence of a tag wins.
-/

namespace FixEngine

/-- `GenericField` and `GenericFieldView`. Tags are 32-bit in the source. -/
structure Field where
  tag : ℕ
  value : Bytes
  deriving DecidableEq, Repr

/-- `GenericMessage`. -/
abbrev Message := List Field

/-- The value of the first field with a tag, as `std::find_if` finds it. -/
def Message.firstValue? (message : Message) (tag : ℕ) : Option Bytes :=
  (message.find? (·.tag = tag)).map Field.value

/-- `HeaderCache`: where the header values that dispatch looks at were found. -/
structure HeaderCache where
  msgType : Option Bytes := none
  senderCompId : Option Bytes := none
  targetCompId : Option Bytes := none
  sendingTime : Option Bytes := none
  msgSeqNumText : Option Bytes := none
  possDupFlag : Option Bytes := none
  origSendingTime : Option Bytes := none
  testReqId : Option Bytes := none
  msgSeqNum : ℕ := 0
  hasMsgSeqNum : Bool := false
  deriving DecidableEq, Repr

/-- The MsgSeqNum case: the number is kept when it can be read, and counts as present when
nothing follows it. -/
def HeaderCache.recordMsgSeqNum (cache : HeaderCache) (value : Bytes) : HeaderCache :=
  { cache with
    msgSeqNumText := some value
    msgSeqNum := (fromChars 64 value).value.getD cache.msgSeqNum
    hasMsgSeqNum := cache.hasMsgSeqNum || ((fromChars 64 value).whole value).isSome }

/-- The slot of a header tag takes the value of the field that comes last. -/
def HeaderCache.record (cache : HeaderCache) (field : Field) : HeaderCache :=
  match field.tag with
  | 35 => { cache with msgType := some field.value }
  | 49 => { cache with senderCompId := some field.value }
  | 56 => { cache with targetCompId := some field.value }
  | 52 => { cache with sendingTime := some field.value }
  | 43 => { cache with possDupFlag := some field.value }
  | 122 => { cache with origSendingTime := some field.value }
  | 112 => { cache with testReqId := some field.value }
  | 34 => cache.recordMsgSeqNum field.value
  | _ => cache

/-- `ValidMessageView`. -/
structure ValidMessageView where
  message : Message
  headerCache : HeaderCache
  deriving DecidableEq, Repr

/-- `make_valid_message_view`. -/
def makeValidMessageView (message : Message) : ValidMessageView :=
  ⟨message, message.foldl HeaderCache.record {}⟩

end FixEngine
