import FixEngine.Core.Parser

/-!
# The outbound message store

`MessageStore` (`core/MessageStore.hpp`, `MessageStore.cpp`) appends every outbound wire to one
blob and keeps an index entry for it: its place in the blob, its MsgSeqNum and type, and where
the values lie that a resend has to change. The entry is made by scanning the wire again.
`ResendStream` walks a range of the index and groups administrative messages into gap fills.

Offsets and lengths are 32-bit (patch points 32-bit signed and 16-bit) and wrap as the source's
members do.
-/

namespace FixEngine

/-- The number of values of `uint16_t`. -/
def word16 : ℕ := 2 ^ 16

/-- The number of values of `uint32_t`. -/
def word32 : ℕ := 2 ^ 32

/-- The number of values of `uint64_t`. -/
def word64 : ℕ := 2 ^ 64

/-- `static_cast<int32_t>` of an unsigned number. -/
def toInt32 (n : ℕ) : ℤ := Int.bmod n word32

/-- `static_cast<int64_t>` of an unsigned number. -/
def toInt64 (n : ℕ) : ℤ := Int.bmod n word64

/-- `MsgIndex`: where a stored message lies, what it is, and where its patch points are. -/
structure MsgIndex where
  off : ℕ := 0
  len : ℕ := 0
  seq : ℕ := 0
  off34 : ℤ := -1
  off52 : ℤ := -1
  off43 : ℤ := -1
  off122 : ℤ := -1
  len34 : ℕ := 0
  len43 : ℕ := 0
  len122 : ℕ := 0
  len52 : ℕ := 0
  /-- `get_msg_type()`: the first `msg_size` characters of `msg_type`. -/
  msgType : Bytes := [0]
  deriving DecidableEq, Repr, Inhabited

/-- One field of the wire, whose value starts at `valueOffset`. -/
def MsgIndex.record (index : MsgIndex) (tag value : Bytes) (valueOffset : ℕ) : MsgIndex :=
  if tag = ascii "34" then
    { index with
      off34 := toInt32 valueOffset
      len34 := value.length % word16
      seq := (fromChars 32 value).value.getD 0 }
  else if tag = ascii "52" then
    { index with off52 := toInt32 valueOffset, len52 := value.length % word16 }
  else if tag = ascii "43" then
    { index with off43 := toInt32 valueOffset, len43 := value.length % word16 }
  else if tag = ascii "122" then
    { index with off122 := toInt32 valueOffset, len122 := value.length % word16 }
  else if tag = ascii "35" then { index with msgType := value.take 2 }
  else index

/-- The scan of `create_message_index` from position `pos` on, where `rest` begins. It ends at
the checksum field or the end of the wire, and (against the assertions) when a delimiter is
missing. Every round takes at least two bytes. -/
def indexFields : ℕ → ℕ → Bytes → MsgIndex → MsgIndex
  | 0, _, _, index => index
  | rounds + 1, pos, rest, index =>
      if rest = [] then index
      else
        match cut equalSign rest with
        | none => index
        | some (tag, afterEqual) =>
            match cut soh afterEqual with
            | none => index
            | some (value, next) =>
                if tag = ascii "10" then index
                else
                  let valueOffset := pos + tag.length + 1
                  indexFields rounds (valueOffset + value.length + 1) next
                    (index.record tag value valueOffset)

/-- `create_message_index`. -/
def createMessageIndex (wire : Bytes) (off : ℕ) : MsgIndex :=
  indexFields wire.length 0 wire { off := off % word32, len := wire.length % word32 }

/-- `ResendAction`: a gap to fill, or one message to send again. -/
structure ResendAction where
  beginSeqNo : ℕ
  endSeqNo : ℕ
  gapFill : Bool
  deriving DecidableEq, Repr

/-- `ResendStream`. -/
structure ResendStream where
  outboundIndex : List MsgIndex
  currentIndex : ℕ
  endSeqNo : ℕ
  deriving DecidableEq, Repr

namespace ResendStream

/-- Administrative types, which are never sent again. -/
def noResend (msgType : Bytes) : Bool :=
  match msgType with
  | [c] => ascii "0A21345" |>.contains c
  | _ => false

/-- `has_next`. -/
def hasNext (stream : ResendStream) : Bool := decide (stream.currentIndex ≤ stream.endSeqNo)

/-- `outbound_index_[current_index_ - 1]`, with the subtraction in 32 bits; `none` is an access
outside the index. -/
def entry (stream : ResendStream) : Option MsgIndex :=
  stream.outboundIndex[(stream.currentIndex + (word32 - 1)) % word32]?

/-- The condition of the scan in `next`. -/
def atAdmin (stream : ResendStream) : Bool :=
  stream.hasNext && (stream.entry.map fun index => noResend index.msgType).getD false

/-- `++current_index_`, in 32 bits. -/
def advance (stream : ResendStream) : ResendStream :=
  { stream with currentIndex := (stream.currentIndex + 1) % word32 }

/-- The scan over administrative messages; the range bounds its rounds. -/
def skipAdmin : ℕ → ResendStream → ResendStream
  | 0, stream => stream
  | rounds + 1, stream => if stream.atAdmin then skipAdmin rounds stream.advance else stream

/-- `next`: all administrative messages from here on as one gap, or the message that is here. -/
def next (stream : ResendStream) : ResendAction × ResendStream :=
  let start := stream.currentIndex
  if stream.atAdmin then
    let skipped := skipAdmin (stream.endSeqNo + 2 - start) stream
    (⟨start, (skipped.currentIndex + (word32 - 1)) % word32, true⟩, skipped)
  else (⟨start, start, false⟩, stream.advance)

end ResendStream

/-- `MessageStore`: the wires one behind the other, and an index of them. -/
structure MessageStore where
  outboundIndex : List MsgIndex
  /-- The written cells of the blob buffer. -/
  blob : Bytes
  /-- The size of the allocation. -/
  allocated : ℕ
  /-- `blob_buffer_size_`, the size of the allocation in 32 bits. -/
  blobBufferSize : ℕ
  /-- `blob_buffer_used_`. -/
  blobBufferUsed : ℕ
  deriving DecidableEq, Repr

namespace MessageStore

/-- `blob_buffer_start_size`. -/
def blobBufferStartSize : ℕ := 8 * 1024 * 1024

/-- `min_blob_buffer_grow_size`. -/
def minBlobBufferGrowSize : ℕ := 4 * 1024 * 1024

/-- The constructor. -/
def new : MessageStore where
  outboundIndex := []
  blob := []
  allocated := blobBufferStartSize
  blobBufferSize := blobBufferStartSize
  blobBufferUsed := 0

/-- `grow_blob_buffer_`. -/
def growBlobBuffer (store : MessageStore) (additionalSize : ℕ) : MessageStore :=
  let newSize := store.blobBufferSize + max minBlobBufferGrowSize additionalSize
  { store with
    blob := store.blob.take store.blobBufferUsed
    allocated := newSize
    blobBufferSize := newSize % word32 }

/-- Make room for a wire. -/
def reserve (store : MessageStore) (wire : Bytes) : MessageStore :=
  if store.blobBufferSize < store.blobBufferUsed + wire.length then
    store.growBlobBuffer (wire.length + store.blobBufferUsed - store.blobBufferSize)
  else store

/-- `store_outbound_message`. -/
def storeOutboundMessage (store : MessageStore) (wire : Bytes) : MessageStore :=
  let roomy := store.reserve wire
  { roomy with
    blob := memcpy roomy.blob roomy.blobBufferUsed wire
    outboundIndex := roomy.outboundIndex ++ [createMessageIndex wire roomy.blobBufferUsed]
    blobBufferUsed := (roomy.blobBufferUsed + wire.length) % word32 }

/-- `assert(msg_index.seq == outbound_index_.size() + 1)` of `store_outbound_message`. -/
def seqAssert (store : MessageStore) (wire : Bytes) : Bool :=
  (createMessageIndex wire store.blobBufferUsed).seq == store.outboundIndex.length + 1

/-- `get_resend_stream`. -/
def getResendStream (store : MessageStore) (beginSeqNo endSeqNo : ℕ) : ResendStream :=
  ⟨store.outboundIndex, beginSeqNo, endSeqNo⟩

/-- `get_message_index`; `none` where its assertion fails. -/
def getMessageIndex (store : MessageStore) (seqNum : ℕ) : Option MsgIndex :=
  if seqNum = 0 then none else store.outboundIndex[seqNum - 1]?

/-- `get_message_wire`. -/
def getMessageWire (store : MessageStore) (index : MsgIndex) : Bytes :=
  (store.blob.drop index.off).take index.len

/-- `all_messages`. -/
def allMessages (store : MessageStore) : Bytes := store.blob.take store.blobBufferUsed

end MessageStore

end FixEngine
