import FixEngine.Outbound.Index
import FixEngine.Outbound.Stored

/-!
# Stored messages are never disturbed

The store appends wires to one buffer that it replaces by a larger one now and then, and keeps for
each of them an entry with its place, its number, its type and its patch points. While the wires are
together shorter than 2^32 - 2^22 bytes no size wraps: growing adds 2^22 bytes at least, and the
buffer that has to grow was too small for them. So every message can be read back at any later time,
and its patch points are where the scan of the wire saw the last field of the tag.
-/

namespace FixEngine

/-- A complete message: fields with values free of delimiters, and the checksum after them. -/
structure CompleteMessage where
  body : List Field
  checksum : Bytes
  noDelimiter : ∀ field ∈ body, soh ∉ field.value
  noChecksum : ∀ field ∈ body, field.tag ≠ 10
  noDelimiterLast : soh ∉ checksum

/-- The bytes of a complete message. -/
def CompleteMessage.wire (message : CompleteMessage) : Bytes :=
  fieldsText message.body ++ fieldText ⟨10, message.checksum⟩

/-- The only field with a tag has the given value. -/
def Only (body : List Field) (tag : ℕ) (value : Bytes) : Prop :=
  ∃ before after, body = before ++ ⟨tag, value⟩ :: after ∧
    ∀ field ∈ before ++ after, field.tag ≠ tag

namespace MsgIndex

/-- The tags that have patch points. -/
def patchTags : List ℕ := [34, 52, 43, 122]

/-- Offset and length of the patch point of a tag. -/
def point (index : MsgIndex) (tag : ℕ) : ℤ × ℕ :=
  if tag = 34 then (index.off34, index.len34)
  else if tag = 52 then (index.off52, index.len52)
  else if tag = 43 then (index.off43, index.len43)
  else (index.off122, index.len122)

/-- The patch point of a tag is the value of the last field with the tag, or there is none. -/
def PointsToLast (index : MsgIndex) (wire : Bytes) (body : List Field) (tag : ℕ) : Prop :=
  ((∀ field ∈ body, field.tag ≠ tag) ∧ (index.point tag).1 = -1) ∨
    ∃ before value after, body = before ++ ⟨tag, value⟩ :: after ∧
      (∀ field ∈ after, field.tag ≠ tag) ∧
      (index.point tag).1 = ((fieldsText before).length + (decimal tag).length + 1 : ℕ) ∧
      (index.point tag).2 = value.length ∧
      (wire.drop (index.point tag).1.toNat).take (index.point tag).2 = value

section Points

variable {index : MsgIndex} {tag other pos : ℕ} {value : Bytes} {fields before after : List Field}

theorem point_record_self (patched : tag ∈ patchTags) :
    (index.record (decimal tag) value pos).point tag = (toInt32 pos, value.length % word16) := by
  simp only [patchTags, List.mem_cons, List.not_mem_nil, or_false] at patched
  rw [record_decimal]
  rcases patched with rfl | rfl | rfl | rfl <;> simp [point]

theorem point_record_other (patched : tag ∈ patchTags) (differs : other ≠ tag) :
    (index.record (decimal other) value pos).point tag = index.point tag := by
  simp only [patchTags, List.mem_cons, List.not_mem_nil, or_false] at patched
  rw [record_decimal]
  rcases patched with rfl | rfl | rfl | rfl <;> split_ifs <;> first | contradiction | simp [point]

theorem point_recordFields_other (patched : tag ∈ patchTags)
    (absent : ∀ field ∈ fields, field.tag ≠ tag) :
    (recordFields pos fields index).point tag = index.point tag := by
  induction fields generalizing pos index with
  | nil => rfl
  | cons first rest ih =>
      rw [recordFields, ih fun field mem => absent field (List.mem_cons_of_mem _ mem)]
      exact point_record_other patched (absent first (List.mem_cons_self ..))

/-- The scan leaves the patch point at the last field with the tag. -/
theorem point_recordFields_last (patched : tag ∈ patchTags)
    (last : ∀ field ∈ after, field.tag ≠ tag) :
    (recordFields pos (before ++ ⟨tag, value⟩ :: after) index).point tag =
      (toInt32 (pos + ((fieldsText before).length + (decimal tag).length + 1)),
        value.length % word16) := by
  rw [recordFields_append, recordFields, point_recordFields_other patched last,
    point_record_self patched]
  simp only [Nat.add_assoc]

/-- The last field with a tag. -/
theorem exists_last (occurs : ∃ field ∈ fields, field.tag = tag) :
    ∃ before value after, fields = before ++ ⟨tag, value⟩ :: after ∧
      ∀ field ∈ after, field.tag ≠ tag := by
  induction fields with
  | nil => simp at occurs
  | cons first rest ih =>
      by_cases later : ∃ field ∈ rest, field.tag = tag
      · rcases ih later with ⟨before, value, after, split, last⟩
        exact ⟨first :: before, value, after, by rw [split]; rfl, last⟩
      · rcases occurs with ⟨field, mem, isTag⟩
        rcases List.mem_cons.mp mem with rfl | inRest
        · refine ⟨[], field.value, rest, by rw [← isTag]; rfl, ?_⟩
          intro other memOther same
          exact later ⟨other, memOther, same⟩
        · exact absurd ⟨field, inRest, isTag⟩ later

/-- What the scan over the fields of a message below 2^31 bytes makes of the patch points. -/
theorem pointsToLast_recordFields {rest : Bytes} (patched : tag ∈ patchTags)
    (fresh : (index.point tag).1 = -1) (small : (fieldsText fields ++ rest).length < 2 ^ 31)
    (short : ∀ field ∈ fields, field.tag = tag → field.value.length < word16) :
    (recordFields 0 fields index).PointsToLast (fieldsText fields ++ rest) fields tag := by
  by_cases occurs : ∃ field ∈ fields, field.tag = tag
  · rcases exists_last occurs with ⟨before, value, after, split, last⟩
    right
    have text : fieldsText fields ++ rest = (fieldsText before ++ (decimal tag ++ [equalSign])) ++
        (value ++ (soh :: fieldsText after ++ rest)) := by
      rw [split]
      simp [fieldText]
    have width : (fieldsText before ++ (decimal tag ++ [equalSign])).length =
        (fieldsText before).length + (decimal tag).length + 1 := by
      simp
      omega
    have valueShort : value.length < word16 :=
      short ⟨tag, value⟩ (by simp [split]) rfl
    have inside : (fieldsText before).length + (decimal tag).length + 1 < 2 ^ 31 := by
      rw [text, List.length_append, width] at small
      omega
    have pointEq := @point_recordFields_last index tag 0 value before after patched last
    rw [← split, Nat.zero_add, toInt32_eq inside, Nat.mod_eq_of_lt valueShort] at pointEq
    refine ⟨before, value, after, split, last, ?_, ?_, ?_⟩
    · rw [pointEq]
    · rw [pointEq]
    · rw [pointEq, Int.toNat_natCast, text, ← width, List.drop_left, List.take_left]
  · left
    have absent : ∀ field ∈ fields, field.tag ≠ tag := fun field mem same =>
      occurs ⟨field, mem, same⟩
    refine ⟨absent, ?_⟩
    rw [point_recordFields_other patched absent]
    exact fresh

end Points

end MsgIndex

namespace CompleteMessage

variable {message : CompleteMessage} {number : ℕ}

/-- A message the store is made for. -/
structure Storable (message : CompleteMessage) (number : ℕ) : Prop where
  numbered : ∃ text, Only message.body 34 text ∧ text ≠ [] ∧ (∀ b ∈ text, isDigit b = true) ∧
    digitsValue text = number
  typed : ∃ type, Only message.body 35 type
  length_lt : message.wire.length < 2 ^ 31
  short : ∀ field ∈ message.body, field.tag ∈ MsgIndex.patchTags → field.value.length < word16

/-- What the entry of a message says about it. -/
structure Describes (index : MsgIndex) (message : CompleteMessage) (number : ℕ) : Prop where
  seq_eq : index.seq = number
  msgType_eq : ∃ type, Only message.body 35 type ∧ index.msgType = type.take 2
  points : ∀ tag ∈ MsgIndex.patchTags, index.PointsToLast message.wire message.body tag

theorem wire_ne_nil (message : CompleteMessage) : message.wire ≠ [] := by
  intro empty
  exact fieldText_ne_nil _ (List.append_eq_nil_iff.mp empty).2

theorem createMessageIndex_wire (message : CompleteMessage) (off : ℕ) :
    createMessageIndex message.wire off = MsgIndex.recordFields 0 message.body
      { off := off % word32, len := message.wire.length % word32 } := by
  have count : message.body.length < message.wire.length := by
    have fewer := length_fieldsText_ge message.body
    have positive := List.length_pos_iff.mpr (fieldText_ne_nil ⟨10, message.checksum⟩)
    rw [wire, List.length_append]
    omega
  have whole : message.body.takeWhile (·.tag ≠ 10) = message.body := by
    rw [List.takeWhile_eq_self_iff]
    intro field mem
    simpa using message.noChecksum field mem
  have scanned := @indexFields_eq { off := off % word32, len := message.wire.length % word32 } 0 _
    message.body message.noDelimiter ⟨10, message.checksum⟩ rfl message.noDelimiterLast [] count
  rw [List.append_nil, whole] at scanned
  exact scanned

theorem Storable.describes (storable : message.Storable number) (small : number < word32) (off : ℕ) :
    Describes (createMessageIndex message.wire off) message number := by
  rw [createMessageIndex_wire]
  refine ⟨?_, ?_, ?_⟩
  · rcases storable.numbered with ⟨text, ⟨before, after, split, others⟩, nonempty, digits, rfl⟩
    have later : ∀ field ∈ after, field.tag ≠ 34 := fun field mem =>
      others field (List.mem_append_right _ mem)
    have read : (fromChars 32 text).value.getD 0 = digitsValue text := by
      simp only [fromChars, takeWhile_isDigit_eq_self digits, nonempty, if_false]
      rw [if_pos (show digitsValue text < 2 ^ 32 from small)]
      rfl
    rw [split, MsgIndex.recordFields_append, MsgIndex.recordFields,
      MsgIndex.seq_recordFields later]
    simp [MsgIndex.record_decimal, read]
  · rcases storable.typed with ⟨type, ⟨before, after, split, others⟩⟩
    have later : ∀ field ∈ after, field.tag ≠ 35 := fun field mem =>
      others field (List.mem_append_right _ mem)
    refine ⟨type, ⟨before, after, split, others⟩, ?_⟩
    rw [split, MsgIndex.recordFields_append, MsgIndex.recordFields,
      MsgIndex.msgType_recordFields later]
    simp [MsgIndex.record_decimal]
  · intro tag patched
    apply MsgIndex.pointsToLast_recordFields patched _ storable.length_lt
      fun field mem same => storable.short field mem (same ▸ patched)
    simp only [MsgIndex.patchTags, List.mem_cons, List.not_mem_nil, or_false] at patched
    rcases patched with rfl | rfl | rfl | rfl <;> rfl

end CompleteMessage

namespace MessageStore

variable {store : MessageStore} {wires : List Bytes} {wire : Bytes}

/-- The entries of wires that are stored one after the other, the first one at the given place. -/
def entries : ℕ → List Bytes → List MsgIndex
  | _, [] => []
  | off, wire :: rest => createMessageIndex wire off :: entries (off + wire.length) rest

theorem entries_append (off : ℕ) (front rest : List Bytes) :
    entries off (front ++ rest) = entries off front ++ entries (off + front.flatten.length) rest := by
  induction front generalizing off with
  | nil => simp [entries]
  | cons first front ih => simp [entries, ih, Nat.add_assoc]

theorem length_entries (off : ℕ) (wires : List Bytes) : (entries off wires).length = wires.length := by
  induction wires generalizing off with
  | nil => rfl
  | cons first rest ih => simp [entries, ih]

/-- Every copy that storing a wire makes stays within both buffers. -/
structure CopiesFit (store : MessageStore) (wire : Bytes) : Prop where
  old : store.blobBufferUsed ≤ store.allocated
  kept : store.blobBufferUsed ≤ (store.reserve wire).allocated
  added : (store.reserve wire).blobBufferUsed + wire.length ≤ (store.reserve wire).allocated

/-- The store holds these wires and nothing else, and knows the size of its buffer. -/
structure Archived (store : MessageStore) (wires : List Bytes) : Prop where
  holding : store.Holding wires
  index_eq : store.outboundIndex = entries 0 wires
  size_eq : store.blobBufferSize = store.allocated
  used_le : store.blobBufferUsed ≤ store.allocated

theorem archived_new : Archived MessageStore.new [] :=
  ⟨holding_new, rfl, rfl, Nat.zero_le _⟩

theorem blobBufferUsed_reserve (store : MessageStore) (wire : Bytes) :
    (store.reserve wire).blobBufferUsed = store.blobBufferUsed := by
  rw [reserve]
  split <;> rfl

theorem outboundIndex_reserve (store : MessageStore) (wire : Bytes) :
    (store.reserve wire).outboundIndex = store.outboundIndex := by
  rw [reserve]
  split <;> rfl

/-- The bound on all wires together: growing does not wrap below it. -/
def maxStored : ℕ := 2 ^ 32 - 2 ^ 22

theorem Archived.reserve (archived : store.Archived wires) (wire : Bytes)
    (fits : wires.flatten.length + wire.length < maxStored) :
    (store.reserve wire).blobBufferSize = (store.reserve wire).allocated ∧
      store.blobBufferUsed + wire.length ≤ (store.reserve wire).allocated := by
  have used := archived.holding.used_eq
  have size := archived.size_eq
  rw [MessageStore.reserve]
  split
  · next tooSmall =>
      simp only [growBlobBuffer, minBlobBufferGrowSize, maxStored, word32] at *
      constructor
      · apply Nat.mod_eq_of_lt
        omega
      · omega
  · next roomy =>
      exact ⟨size, by omega⟩

theorem Archived.copiesFit (archived : store.Archived wires) (wire : Bytes)
    (fits : wires.flatten.length + wire.length < maxStored) : store.CopiesFit wire := by
  have room := (archived.reserve wire fits).2
  refine ⟨archived.used_le, by omega, ?_⟩
  rw [blobBufferUsed_reserve]
  exact room

theorem Archived.storeOutboundMessage (archived : store.Archived wires) (wire : Bytes)
    (fits : wires.flatten.length + wire.length < maxStored) :
    (store.storeOutboundMessage wire).Archived (wires ++ [wire]) := by
  have below : wires.flatten.length + wire.length < word32 := by
    simp only [maxStored, word32] at fits ⊢
    omega
  have grown := archived.reserve wire fits
  refine ⟨archived.holding.storeOutboundMessage wire below, ?_, grown.1, ?_⟩
  · simp only [MessageStore.storeOutboundMessage, outboundIndex_reserve, blobBufferUsed_reserve,
      archived.index_eq, archived.holding.used_eq, entries_append, entries, Nat.zero_add]
  · simp only [MessageStore.storeOutboundMessage, blobBufferUsed_reserve]
    rw [archived.holding.used_eq, Nat.mod_eq_of_lt below, ← archived.holding.used_eq]
    exact grown.2

/-- A store in which wires were stored one after the other. -/
def storeAll (wires : List Bytes) : MessageStore :=
  wires.foldl storeOutboundMessage MessageStore.new

theorem archived_storeAll (fits : wires.flatten.length < maxStored) :
    (storeAll wires).Archived wires := by
  induction wires using List.reverseRecOn with
  | nil => exact archived_new
  | append_singleton front wire ih =>
      simp only [List.flatten_append, List.flatten_cons, List.flatten_nil, List.append_nil,
        List.length_append] at fits
      have before := ih (by omega)
      rw [storeAll, List.foldl_append, List.foldl_cons, List.foldl_nil]
      exact before.storeOutboundMessage wire fits

/-- Entry by entry, the wires can be read back. -/
theorem Archived.getMessage (archived : store.Archived wires)
    (fits : wires.flatten.length < maxStored) {front rest : List Bytes}
    (split : wires = front ++ wire :: rest) :
    store.getMessageIndex (front.length + 1) =
        some (createMessageIndex wire front.flatten.length) ∧
      store.getMessageWire (createMessageIndex wire front.flatten.length) = wire := by
  have below : wires.flatten.length < word32 := by
    simp only [maxStored, word32] at fits ⊢
    omega
  have found : store.outboundIndex[front.length]? =
      some (createMessageIndex wire front.flatten.length) := by
    rw [archived.index_eq, split, entries_append, List.getElem?_append_right (by simp [length_entries]),
      length_entries, Nat.sub_self, entries, List.getElem?_cons_zero, Nat.zero_add]
  have lengths : wires.flatten.length =
      front.flatten.length + (wire.length + rest.flatten.length) := by
    rw [split]
    simp
  have place := place_createMessageIndex wire front.flatten.length
  rw [Nat.mod_eq_of_lt (by omega), Nat.mod_eq_of_lt (by omega)] at place
  refine ⟨by simpa [getMessageIndex] using found, ?_⟩
  have inside : (store.blob.drop front.flatten.length).take wire.length =
      ((store.blob.take store.blobBufferUsed).drop front.flatten.length).take wire.length := by
    rw [List.drop_take, List.take_take, Nat.min_eq_left]
    rw [archived.holding.used_eq]
    omega
  rw [getMessageWire, place.1, place.2, inside, archived.holding.blob_eq, split]
  simp

theorem length_le_flatten (nonempty : ∀ wire ∈ wires, wire ≠ []) :
    wires.length ≤ wires.flatten.length := by
  induction wires with
  | nil => exact Nat.le_refl _
  | cons first rest ih =>
      have here := List.length_pos_iff.mpr (nonempty first (List.mem_cons_self ..))
      have later := ih fun wire mem => nonempty wire (List.mem_cons_of_mem _ mem)
      simp only [List.flatten_cons, List.length_append, List.length_cons]
      omega

/-- Messages that were stored one after the other can all be read back, with entries that describe
them, and storing them never left a buffer. -/
theorem stored_undisturbed (messages : List CompleteMessage)
    (storable : ∀ (i : ℕ) (message : CompleteMessage), messages[i]? = some message →
      message.Storable (i + 1))
    (total : (messages.map CompleteMessage.wire).flatten.length < maxStored) :
    (storeAll (messages.map CompleteMessage.wire)).allMessages =
        (messages.map CompleteMessage.wire).flatten ∧
      ∀ (i : ℕ) (message : CompleteMessage), messages[i]? = some message →
        (∃ index, (storeAll (messages.map CompleteMessage.wire)).getMessageIndex (i + 1) = some index ∧
          (storeAll (messages.map CompleteMessage.wire)).getMessageWire index = message.wire ∧
          CompleteMessage.Describes index message (i + 1)) ∧
        (storeAll ((messages.take i).map CompleteMessage.wire)).CopiesFit message.wire ∧
        (storeAll ((messages.take i).map CompleteMessage.wire)).seqAssert message.wire = true := by
  have archived := archived_storeAll total
  refine ⟨archived.holding.blob_eq, ?_⟩
  intro i message found
  rcases List.getElem?_eq_some_iff.mp found with ⟨inside, isMessage⟩
  have split : messages = messages.take i ++ message :: messages.drop (i + 1) := by
    rw [← isMessage, List.getElem_cons_drop, List.take_append_drop]
  have wiresEq : messages.map CompleteMessage.wire = (messages.take i).map CompleteMessage.wire ++
      message.wire :: (messages.drop (i + 1)).map CompleteMessage.wire := by
    rw [← List.map_cons, ← List.map_append, ← split]
  have count : ((messages.take i).map CompleteMessage.wire).length = i := by
    rw [List.length_map, List.length_take]
    omega
  have lengths := congrArg (fun wires : List Bytes => wires.flatten.length) wiresEq
  simp only [List.flatten_append, List.flatten_cons, List.length_append] at lengths
  have earlier : ((messages.take i).map CompleteMessage.wire).flatten.length + message.wire.length <
      maxStored := by
    omega
  have small : i + 1 < word32 := by
    have few := @length_le_flatten (messages.map CompleteMessage.wire) (by
      intro wire mem
      rcases List.mem_map.mp mem with ⟨other, _, rfl⟩
      exact other.wire_ne_nil)
    rw [List.length_map] at few
    simp only [maxStored, word32] at total ⊢
    omega
  have before := @archived_storeAll ((messages.take i).map CompleteMessage.wire) (by omega)
  have read := archived.getMessage total wiresEq
  rw [count] at read
  refine ⟨⟨_, read.1, read.2, (storable i message found).describes small _⟩,
    before.copiesFit _ earlier, ?_⟩
  have entry := (storable i message found).describes small
    (storeAll ((messages.take i).map CompleteMessage.wire)).blobBufferUsed
  rw [seqAssert, entry.seq_eq, before.index_eq, length_entries, count]
  exact beq_self_eq_true _

end MessageStore

namespace CompleteMessage

/-- The first message of a session, a Heartbeat. -/
def firstHeartbeat : CompleteMessage where
  body := [⟨35, ascii "0"⟩, ⟨34, ascii "1"⟩, ⟨52, ascii "Now"⟩]
  checksum := ascii "000"
  noDelimiter := by decide
  noChecksum := by decide
  noDelimiterLast := by decide

theorem storable_firstHeartbeat : firstHeartbeat.Storable 1 where
  numbered := ⟨ascii "1", ⟨[⟨35, ascii "0"⟩], [⟨52, ascii "Now"⟩], rfl, by decide⟩, by decide,
    List.all_eq_true.mp (by decide), by decide⟩
  typed := ⟨ascii "0", [], [⟨34, ascii "1"⟩, ⟨52, ascii "Now"⟩], rfl, by decide⟩
  length_lt := by decide
  short := by decide

/-- The second message, with a payload. -/
def custom (payload : Bytes) (noDelimiter : soh ∉ payload) : CompleteMessage where
  body := [⟨35, ascii "cu"⟩, ⟨34, ascii "2"⟩, ⟨52, ascii "Now"⟩, ⟨9250, payload⟩]
  checksum := ascii "000"
  noDelimiter := by
    intro field mem
    simp only [List.mem_cons, List.not_mem_nil, or_false] at mem
    rcases mem with rfl | rfl | rfl | rfl
    · decide
    · decide
    · decide
    · exact noDelimiter
  noChecksum := by
    intro field mem
    simp only [List.mem_cons, List.not_mem_nil, or_false] at mem
    rcases mem with rfl | rfl | rfl | rfl <;> simp
  noDelimiterLast := by decide

section Custom

variable {payload : Bytes} (noDelimiter : soh ∉ payload)

theorem length_custom : (custom payload noDelimiter).wire.length = payload.length + 31 := by
  simp only [wire, custom, fieldsText_cons, fieldsText_nil, List.append_nil, List.length_append,
    length_fieldText]
  have tags : (decimal 35).length = 2 ∧ (decimal 34).length = 2 ∧ (decimal 52).length = 2 ∧
      (decimal 9250).length = 4 ∧ (decimal 10).length = 2 := by
    decide
  have values : (ascii "cu").length = 2 ∧ (ascii "2").length = 1 ∧ (ascii "Now").length = 3 ∧
      (ascii "000").length = 3 := by
    decide
  omega

theorem storable_custom (fits : payload.length + 31 < 2 ^ 31) :
    (custom payload noDelimiter).Storable 2 where
  numbered := ⟨ascii "2", ⟨[⟨35, ascii "cu"⟩], [⟨52, ascii "Now"⟩, ⟨9250, payload⟩], rfl, by simp⟩,
    by decide, List.all_eq_true.mp (by decide), by decide⟩
  typed := ⟨ascii "cu", [], [⟨34, ascii "2"⟩, ⟨52, ascii "Now"⟩, ⟨9250, payload⟩], rfl, by simp⟩
  length_lt := by rwa [length_custom]
  short := by
    intro field mem patched
    simp only [custom, List.mem_cons, List.not_mem_nil, or_false] at mem
    rcases mem with rfl | rfl | rfl | rfl
    · decide
    · decide
    · decide
    · simp [MsgIndex.patchTags] at patched

end Custom

/-- A message longer than the first allocation of the store. -/
@[irreducible]
def longCustom : CompleteMessage :=
  custom (List.replicate MessageStore.blobBufferStartSize 120) (by
    intro inside
    exact absurd (List.eq_of_mem_replicate inside) (by decide))

theorem length_longCustom : longCustom.wire.length = 2 ^ 23 + 31 := by
  rw [longCustom, length_custom, List.length_replicate]
  rfl

theorem storable_longCustom : longCustom.Storable 2 := by
  rw [longCustom]
  apply storable_custom
  rw [List.length_replicate, MessageStore.blobBufferStartSize]
  omega

/-- The third message, a Heartbeat that is marked as sent again. -/
def markedHeartbeat : CompleteMessage where
  body := [⟨35, ascii "0"⟩, ⟨34, ascii "3"⟩, ⟨43, ascii "Y"⟩, ⟨52, ascii "Now"⟩, ⟨122, ascii "Then"⟩]
  checksum := ascii "000"
  noDelimiter := by decide
  noChecksum := by decide
  noDelimiterLast := by decide

theorem storable_markedHeartbeat : markedHeartbeat.Storable 3 where
  numbered := ⟨ascii "3", ⟨[⟨35, ascii "0"⟩],
    [⟨43, ascii "Y"⟩, ⟨52, ascii "Now"⟩, ⟨122, ascii "Then"⟩], rfl, by decide⟩, by decide,
    List.all_eq_true.mp (by decide), by decide⟩
  typed := ⟨ascii "0", [],
    [⟨34, ascii "3"⟩, ⟨43, ascii "Y"⟩, ⟨52, ascii "Now"⟩, ⟨122, ascii "Then"⟩], rfl, by decide⟩
  length_lt := by decide
  short := by decide

end CompleteMessage

/-- The buffer grows for the second message; the first is read back all the same, and so is the
third with its four patch points. -/
theorem MessageStore.stored_undisturbed_grown :
    let store := MessageStore.storeAll (([CompleteMessage.firstHeartbeat,
      CompleteMessage.longCustom, CompleteMessage.markedHeartbeat]).map CompleteMessage.wire)
    MessageStore.blobBufferStartSize < store.blobBufferUsed ∧
      (∃ index, store.getMessageIndex 1 = some index ∧
        store.getMessageWire index = CompleteMessage.firstHeartbeat.wire ∧
        CompleteMessage.Describes index CompleteMessage.firstHeartbeat 1) ∧
      (∃ index, store.getMessageIndex 2 = some index ∧
        store.getMessageWire index = CompleteMessage.longCustom.wire) ∧
      ∃ index, store.getMessageIndex 3 = some index ∧
        store.getMessageWire index = CompleteMessage.markedHeartbeat.wire ∧
        CompleteMessage.Describes index CompleteMessage.markedHeartbeat 3 := by
  intro store
  have total : (([CompleteMessage.firstHeartbeat, CompleteMessage.longCustom,
      CompleteMessage.markedHeartbeat]).map CompleteMessage.wire).flatten.length =
        CompleteMessage.firstHeartbeat.wire.length +
          (CompleteMessage.longCustom.wire.length + CompleteMessage.markedHeartbeat.wire.length) := by
    simp
  have short : CompleteMessage.firstHeartbeat.wire.length < 100 ∧
      CompleteMessage.markedHeartbeat.wire.length < 100 := by
    decide
  have startSize : MessageStore.blobBufferStartSize = 2 ^ 23 := rfl
  rw [CompleteMessage.length_longCustom] at total
  have fits : (([CompleteMessage.firstHeartbeat, CompleteMessage.longCustom,
      CompleteMessage.markedHeartbeat]).map CompleteMessage.wire).flatten.length <
        MessageStore.maxStored := by
    rw [total, MessageStore.maxStored]
    omega
  rcases MessageStore.stored_undisturbed [CompleteMessage.firstHeartbeat, CompleteMessage.longCustom,
    CompleteMessage.markedHeartbeat] (by
      intro i message found
      rcases i with _ | _ | _ | i
      · cases found
        exact CompleteMessage.storable_firstHeartbeat
      · cases found
        exact CompleteMessage.storable_longCustom
      · cases found
        exact CompleteMessage.storable_markedHeartbeat
      · cases found) fits with ⟨-, entries⟩
  refine ⟨?_, (entries 0 _ rfl).1, ?_, (entries 2 _ rfl).1⟩
  · rw [(MessageStore.archived_storeAll fits).holding.used_eq, total, startSize]
    omega
  · rcases (entries 1 _ rfl).1 with ⟨index, found, read, -⟩
    exact ⟨index, found, read⟩

end FixEngine
