import FixEngine.Core.Factory
import FixEngine.Wire.Format

/-!
# The factory writes the wire form

The scratch buffer is written front to back, with a placeholder for the body length that is
replaced, and the body moved, once the body is complete. `Pending` describes the buffer in
between. The main result is that `build` produces `wireOf` of header and fields, whatever the
buffer held before; reading such a message gives the fields back.
-/

namespace FixEngine

namespace FactoryScratch

/-- The text written so far. -/
structure Holds (scratch : FactoryScratch) (text : Bytes) : Prop where
  position_eq : scratch.position = text.length
  take_eq : scratch.buffer.take text.length = text

/-- A message whose body length is still the placeholder after `front`. -/
structure Pending (scratch : FactoryScratch) (front body : Bytes) : Prop where
  holds : scratch.Holds (front ++ (List.replicate 10 48 ++ soh :: body))
  offset_eq : scratch.bodyLengthOffset = front.length
  digits_eq : scratch.bodyLengthDigitSize = 10

section Frame

variable (scratch : FactoryScratch) (text : Bytes) (c : UInt8) (count : ℕ)

@[simp]
theorem bodyLengthOffset_addString :
    (scratch.addString text).bodyLengthOffset = scratch.bodyLengthOffset := by
  simp only [addString]
  split <;> rfl

@[simp]
theorem bodyLengthDigitSize_addString :
    (scratch.addString text).bodyLengthDigitSize = scratch.bodyLengthDigitSize := by
  simp only [addString]
  split <;> rfl

@[simp]
theorem bodyLengthOffset_addChar :
    (scratch.addChar c).bodyLengthOffset = scratch.bodyLengthOffset := by
  simp only [addChar]
  split <;> rfl

@[simp]
theorem bodyLengthDigitSize_addChar :
    (scratch.addChar c).bodyLengthDigitSize = scratch.bodyLengthDigitSize := by
  simp only [addChar]
  split <;> rfl

@[simp]
theorem bodyLengthOffset_addZeros :
    (scratch.addZeros count).bodyLengthOffset = scratch.bodyLengthOffset := by
  induction count generalizing scratch with
  | zero => rfl
  | succ count ih => rw [addZeros, ih, bodyLengthOffset_addChar]

@[simp]
theorem bodyLengthDigitSize_addZeros :
    (scratch.addZeros count).bodyLengthDigitSize = scratch.bodyLengthDigitSize := by
  induction count generalizing scratch with
  | zero => rfl
  | succ count ih => rw [addZeros, ih, bodyLengthDigitSize_addChar]

end Frame

section Writing

variable {scratch : FactoryScratch} {text : Bytes}

theorem Holds.length_le (holds : scratch.Holds text) : text.length ≤ scratch.buffer.length := by
  have := congrArg List.length holds.take_eq
  simp only [List.length_take] at this
  omega

theorem holds_reset (scratch : FactoryScratch) : scratch.reset.Holds [] :=
  ⟨rfl, by simp⟩

theorem Holds.getBufferView (holds : scratch.Holds text) : scratch.getBufferView = text := by
  rw [FactoryScratch.getBufferView, holds.position_eq, holds.take_eq]

/-- Growing keeps what was written. -/
theorem Holds.grow (holds : scratch.Holds text) (extra : ℕ) : (scratch.grow extra).Holds text where
  position_eq := holds.position_eq
  take_eq := by
    simp only [FactoryScratch.grow, holds.position_eq, List.take_take, Nat.min_self]
    exact holds.take_eq

/-- A copy to the current position appends. -/
theorem Holds.memcpy (holds : scratch.Holds text) (more : Bytes) :
    ({ scratch with
        buffer := FixEngine.memcpy scratch.buffer scratch.position more
        position := scratch.position + more.length } : FactoryScratch).Holds (text ++ more) where
  position_eq := by simp [holds.position_eq]
  take_eq := by
    simp only [holds.position_eq, List.length_append]
    rw [take_memcpy _ holds.length_le, holds.take_eq]

theorem Holds.addString (holds : scratch.Holds text) (more : Bytes) :
    (scratch.addString more).Holds (text ++ more) := by
  simp only [FactoryScratch.addString]
  split
  · exact (holds.grow _).memcpy more
  · exact holds.memcpy more

theorem Holds.addChar (holds : scratch.Holds text) (c : UInt8) :
    (scratch.addChar c).Holds (text ++ [c]) := by
  simp only [FactoryScratch.addChar]
  split
  · exact (holds.grow _).memcpy [c]
  · exact holds.memcpy [c]

theorem Holds.addZeros (holds : scratch.Holds text) (count : ℕ) :
    (scratch.addZeros count).Holds (text ++ List.replicate count 48) := by
  induction count generalizing scratch text with
  | zero => simpa [FactoryScratch.addZeros] using holds
  | succ count ih =>
      simpa [FactoryScratch.addZeros, List.replicate_succ] using ih (holds.addChar 48)

theorem Holds.addField (holds : scratch.Holds text) (field : Field) :
    (scratch.addField field.tag field.value).Holds (text ++ fieldText field) := by
  have written :=
    (((holds.addString (toChars field.tag)).addChar equalSign).addString field.value).addChar soh
  simpa [FactoryScratch.addField, addInt, addEqualSign, addSoh, fieldText, toChars_natCast]
    using written

/-- `9=` and the placeholder. -/
theorem Holds.addBodyLengthPlaceholder (holds : scratch.Holds text)
    (digits_eq : scratch.bodyLengthDigitSize = 10) :
    scratch.addBodyLengthPlaceholder.Pending (text ++ (decimal 9 ++ [equalSign])) [] := by
  have labelled := (holds.addString (toChars 9)).addChar equalSign
  refine ⟨?_, ?_, ?_⟩
  · have marked : ({ (scratch.addInt 9).addEqualSign with
        bodyLengthOffset := (scratch.addInt 9).addEqualSign.position } : FactoryScratch).Holds
        (text ++ toChars 9 ++ [equalSign]) := ⟨labelled.position_eq, labelled.take_eq⟩
    have written := (marked.addZeros 10).addChar soh
    simpa [FactoryScratch.addBodyLengthPlaceholder, addInt, addEqualSign, addSoh, digits_eq,
      show toChars 9 = decimal 9 from rfl] using written
  · simpa [FactoryScratch.addBodyLengthPlaceholder, addSoh, addInt, addEqualSign,
      show toChars 9 = decimal 9 from rfl, Nat.add_assoc] using labelled.position_eq
  · simp [FactoryScratch.addBodyLengthPlaceholder, addSoh, addInt, addEqualSign, digits_eq]

theorem Holds.insertChecksum (holds : scratch.Holds text) :
    scratch.insertChecksum.Holds (text ++ fieldText ⟨10, checksumText (byteSum text)⟩) := by
  have sum : ({ scratch with checksumOffset := scratch.position } : FactoryScratch).computeChecksum =
      byteSum text := by
    simp [computeChecksum, holds.position_eq, holds.take_eq]
  have marked : ({ scratch with checksumOffset := scratch.position } : FactoryScratch).Holds text :=
    ⟨holds.position_eq, holds.take_eq⟩
  have ten : ascii "10" = decimal 10 := by decide
  have written := ((((marked.addString (ascii "10")).addChar equalSign).addZeros
    (3 - (decimal (byteSum text)).length)).addString (decimal (byteSum text))).addChar soh
  simpa [FactoryScratch.insertChecksum, sum, addEqualSign, addSoh, fieldText, checksumText, ten]
    using written

end Writing

section Body

variable {scratch : FactoryScratch} {front body : Bytes}

theorem Pending.addString (pending : scratch.Pending front body) (more : Bytes) :
    (scratch.addString more).Pending front (body ++ more) where
  holds := by simpa using pending.holds.addString more
  offset_eq := by simp [pending.offset_eq]
  digits_eq := by simp [pending.digits_eq]

theorem Pending.addField (pending : scratch.Pending front body) (field : Field) :
    (scratch.addField field.tag field.value).Pending front (body ++ fieldText field) where
  holds := by simpa using pending.holds.addField field
  offset_eq := by
    simp [FactoryScratch.addField, addInt, addEqualSign, addSoh, pending.offset_eq]
  digits_eq := by
    simp [FactoryScratch.addField, addInt, addEqualSign, addSoh, pending.digits_eq]

/-- What the placeholder and the body occupy in the buffer. -/
theorem Pending.cells (pending : scratch.Pending front body) :
    ∃ unused, scratch.buffer = front ++ (List.replicate 10 48 ++ (soh :: (body ++ unused))) := by
  have whole := List.take_append_drop
    (front ++ (List.replicate 10 48 ++ soh :: body)).length scratch.buffer
  rw [pending.holds.take_eq] at whole
  simp only [List.append_assoc, List.cons_append] at whole
  exact ⟨_, whole.symm⟩

/-- What lies behind the placeholder once the body length is written is moved up to it. -/
theorem Pending.insertBodyLength_moved {tail : Bytes} (pending : scratch.Pending front body)
    (width : (decimal body.length).length ≤ body.length + 11)
    (tail_eq : ((memcpy scratch.buffer front.length (decimal body.length)).drop
      (front.length + 10)).take (body.length + 1) = tail) :
    scratch.insertBodyLength.Holds (front ++ (decimal body.length ++ tail)) := by
  have position := pending.holds.position_eq
  have bufferLength := pending.holds.length_le
  simp only [List.length_append, List.length_replicate, List.length_cons] at position bufferLength
  have length : scratch.computeBodyLength = body.length := by
    simp only [computeBodyLength, position, pending.offset_eq, pending.digits_eq]
    omega
  have size : scratch.position - (front.length + 10) = body.length + 1 := by omega
  have frontEq : scratch.buffer.take front.length = front := by
    rcases pending.cells with ⟨unused, cells⟩
    rw [cells, List.take_left]
  have writtenLength := length_memcpy (decimal body.length)
    (show front.length ≤ scratch.buffer.length by omega)
  have tailLength := congrArg List.length tail_eq
  rw [List.length_take, List.length_drop, writtenLength] at tailLength
  refine ⟨?_, ?_⟩
  · simp only [FactoryScratch.insertBodyLength, length, position, pending.digits_eq,
      List.length_append]
    omega
  · simp only [FactoryScratch.insertBodyLength, length, pending.offset_eq, pending.digits_eq, size,
      tail_eq]
    rw [← List.append_assoc, List.length_append, List.length_append, take_memcpy _ (by omega),
      take_memcpy _ (by omega), frontEq]

/-- The real body length replaces the placeholder. -/
theorem Pending.insertBodyLength (pending : scratch.Pending front body)
    (fits : body.length < 10 ^ 10) :
    scratch.insertBodyLength.Holds (front ++ (decimal body.length ++ soh :: body)) := by
  have short : (decimal body.length).length ≤ 10 := length_decimal_le (by decide) fits
  apply pending.insertBodyLength_moved (by omega)
  rcases pending.cells with ⟨unused, cells⟩
  have written : memcpy scratch.buffer front.length (decimal body.length) =
      front ++ ((decimal body.length ++ (List.replicate 10 48).drop (decimal body.length).length) ++
        ((soh :: body) ++ unused)) := by
    rw [memcpy, cells, List.take_left, ← List.drop_drop, List.drop_left,
      List.drop_append_of_le_length (by simpa using short)]
    simp
  rw [written, ← List.drop_drop, List.drop_left, List.drop_left', List.take_left']
  · simp
  · simp only [List.length_append, List.length_drop, List.length_replicate]
    omega

end Body

end FactoryScratch

namespace MessageFactory

/-- The fields `stamp_header_` writes after the body length. -/
def headerFields (params : SessionParameters) (type : Bytes) (seqNum : ℕ) (time : Bytes) :
    List Field :=
  [⟨35, type⟩, ⟨34, toChars (toInt64 seqNum)⟩, ⟨49, params.senderCompId⟩,
    ⟨56, params.targetCompId⟩, ⟨52, time⟩]

/-- The body of the next message the factory builds with the given type and fields. -/
def bodyOf (factory : MessageFactory) (type : Bytes) (fields : List Field) : List Field :=
  headerFields factory.params type factory.seqProvider.nextOut factory.clock.nowFix ++ fields

/-- The scratch buffer holds a message under construction with the body `body`. -/
def Building (factory : MessageFactory) (body : Bytes) : Prop :=
  factory.scratch.Pending
    (fieldText ⟨8, factory.params.fixVersion⟩ ++ (decimal 9 ++ [equalSign])) body

section Frame

variable (factory : MessageFactory) (field : Field) (tag : ℕ) (type : Bytes) (seqNum : ℕ)

@[simp]
theorem params_addField : (factory.addField field).params = factory.params := by
  rw [addField]

@[simp]
theorem seqProvider_addField : (factory.addField field).seqProvider = factory.seqProvider := by
  rw [addField]

@[simp]
theorem clock_addField : (factory.addField field).clock = factory.clock := by
  rw [addField]

@[simp]
theorem params_addTime : (factory.addTime tag).params = factory.params := by
  simp [addTime]

@[simp]
theorem seqProvider_addTime : (factory.addTime tag).seqProvider = factory.seqProvider := by
  simp [addTime]

@[simp]
theorem clock_addTime : (factory.addTime tag).clock = factory.clock.tick := by
  rw [addTime]

@[simp]
theorem params_addBegin : factory.addBegin.params = factory.params := by
  rw [addBegin]

@[simp]
theorem seqProvider_addBegin : factory.addBegin.seqProvider = factory.seqProvider := by
  rw [addBegin]

@[simp]
theorem clock_addBegin : factory.addBegin.clock = factory.clock := by
  rw [addBegin]

@[simp]
theorem params_addHeader : (factory.addHeader type seqNum).params = factory.params := by
  simp [addHeader]

@[simp]
theorem seqProvider_addHeader :
    (factory.addHeader type seqNum).seqProvider = factory.seqProvider := by
  simp [addHeader]

@[simp]
theorem clock_addHeader : (factory.addHeader type seqNum).clock = factory.clock.tick := by
  simp [addHeader]

@[simp]
theorem params_stampHeader : (factory.stampHeader type).params = factory.params := by
  simp [stampHeader]

@[simp]
theorem seqProvider_stampHeader : (factory.stampHeader type).seqProvider =
    factory.seqProvider.updateOut (factory.seqProvider.nextOut + 1) := by
  simp [stampHeader]

@[simp]
theorem clock_stampHeader : (factory.stampHeader type).clock = factory.clock.tick := by
  simp [stampHeader]

@[simp]
theorem params_stampTrailer : factory.stampTrailer.params = factory.params := by
  rw [stampTrailer]

@[simp]
theorem seqProvider_stampTrailer : factory.stampTrailer.seqProvider = factory.seqProvider := by
  rw [stampTrailer]

@[simp]
theorem clock_stampTrailer : factory.stampTrailer.clock = factory.clock := by
  rw [stampTrailer]

@[simp]
theorem params_patch (position bodyOffset : ℕ) (off : ℤ) (len : ℕ) (value : Bytes) :
    (factory.patch position bodyOffset tag off len value).params = factory.params := by
  rw [patch]
  split
  · simp
  · rfl

@[simp]
theorem seqProvider_patch (position bodyOffset : ℕ) (off : ℤ) (len : ℕ) (value : Bytes) :
    (factory.patch position bodyOffset tag off len value).seqProvider = factory.seqProvider := by
  rw [patch]
  split
  · simp
  · rfl

@[simp]
theorem clock_patch (position bodyOffset : ℕ) (off : ℤ) (len : ℕ) (value : Bytes) :
    (factory.patch position bodyOffset tag off len value).clock = factory.clock := by
  rw [patch]
  split
  · simp
  · rfl

end Frame

section Building

variable {factory : MessageFactory} {body : Bytes}

theorem building_addBegin (factory : MessageFactory) : factory.addBegin.Building [] := by
  have version := (FactoryScratch.holds_reset factory.scratch).addField
    ⟨8, factory.params.fixVersion⟩
  refine version.addBodyLengthPlaceholder ?_
  simp [FactoryScratch.addField, FactoryScratch.addInt, FactoryScratch.addEqualSign,
    FactoryScratch.addSoh, FactoryScratch.reset]

theorem Building.addField (building : factory.Building body) (field : Field) :
    (factory.addField field).Building (body ++ fieldText field) :=
  FactoryScratch.Pending.addField building field

theorem Building.addTime (building : factory.Building body) (tag : ℕ) :
    (factory.addTime tag).Building (body ++ fieldText ⟨tag, factory.clock.nowFix⟩) :=
  FactoryScratch.Pending.addField building ⟨tag, factory.clock.nowFix⟩

theorem Building.foldl_addField (building : factory.Building body) (fields : List Field) :
    (fields.foldl MessageFactory.addField factory).Building (body ++ fieldsText fields) := by
  induction fields generalizing factory body with
  | nil => simpa using building
  | cons first rest ih => simpa using ih (building.addField first)

theorem building_addHeader (factory : MessageFactory) (type : Bytes) (seqNum : ℕ) :
    (factory.addHeader type seqNum).Building
      (fieldsText (headerFields factory.params type seqNum factory.clock.nowFix)) := by
  have written := ((((factory.building_addBegin.addField ⟨35, type⟩).addField
    ⟨34, toChars (toInt64 seqNum)⟩).addField ⟨49, factory.params.senderCompId⟩).addField
    ⟨56, factory.params.targetCompId⟩).addTime 52
  simp only [clock_addField, clock_addBegin, List.nil_append] at written
  simpa only [MessageFactory.addHeader, headerFields, fieldsText_cons, fieldsText_nil,
    List.append_nil, List.append_assoc] using written

theorem building_stampHeader (factory : MessageFactory) (type : Bytes) :
    (factory.stampHeader type).Building (fieldsText (factory.bodyOf type [])) := by
  have header := factory.building_addHeader type factory.seqProvider.nextOut
  rw [Building, params_addHeader] at header
  rw [Building, params_stampHeader, stampHeader, bodyOf, List.append_nil]
  exact header

/-- Body length and checksum complete the wire form. -/
theorem Building.stampTrailer {fields : List Field} (building : factory.Building (fieldsText fields))
    (fits : (fieldsText fields).length < 10 ^ 10) :
    factory.stampTrailer.scratch.getBufferView = wireOf factory.params.fixVersion fields := by
  have complete := (FactoryScratch.Pending.insertBodyLength building fits).insertChecksum
  rw [MessageFactory.stampTrailer, complete.getBufferView, wireOf]
  simp [frontOf, fieldText]

end Building

section Build

variable (factory : MessageFactory) (type : Bytes) (fields : List Field)

@[simp]
theorem params_foldl_addField : (fields.foldl addField factory).params = factory.params := by
  induction fields generalizing factory with
  | nil => rfl
  | cons first rest ih => rw [List.foldl_cons, ih, params_addField]

@[simp]
theorem seqProvider_foldl_addField :
    (fields.foldl addField factory).seqProvider = factory.seqProvider := by
  induction fields generalizing factory with
  | nil => rfl
  | cons first rest ih => rw [List.foldl_cons, ih, seqProvider_addField]

@[simp]
theorem clock_foldl_addField : (fields.foldl addField factory).clock = factory.clock := by
  induction fields generalizing factory with
  | nil => rfl
  | cons first rest ih => rw [List.foldl_cons, ih, clock_addField]

@[simp]
theorem params_build : (factory.build type fields).2.params = factory.params := by
  simp [build]

@[simp]
theorem seqProvider_build : (factory.build type fields).2.seqProvider =
    factory.seqProvider.updateOut (factory.seqProvider.nextOut + 1) := by
  simp [build]

@[simp]
theorem clock_build : (factory.build type fields).2.clock = factory.clock.tick := by
  simp [build]

theorem building_build : (fields.foldl addField (factory.stampHeader type)).Building
    (fieldsText (factory.bodyOf type fields)) := by
  have written := (factory.building_stampHeader type).foldl_addField fields
  rw [← fieldsText_append] at written
  simpa [bodyOf] using written

/-- Every builder writes the wire form of the stamped header and its fields. -/
theorem build_wire (fits : (fieldsText (factory.bodyOf type fields)).length < 10 ^ 10) :
    (factory.build type fields).1 =
      wireOf factory.params.fixVersion (factory.bodyOf type fields) := by
  rw [build, (factory.building_build type fields).stampTrailer fits, params_foldl_addField,
    params_stampHeader]

end Build

section ReadBack

variable {factory : MessageFactory} {type : Bytes}

/-- A printed number can be the value of a field. -/
theorem wellFormed_number {tag : ℕ} (tag_lt : tag < 10 ^ 7) (n : ℤ) :
    Field.WellFormed ⟨tag, toChars n⟩ :=
  ⟨tag_lt, toChars_ne_nil n, not_mem_toChars (by decide) (by decide)⟩

/-- The header is well formed when the parameters are. -/
theorem wellFormed_headerFields {params : SessionParameters} {seqNum : ℕ} {time : Bytes}
    (type_ne_nil : type ≠ []) (soh_type : soh ∉ type)
    (sender_ne_nil : params.senderCompId ≠ []) (soh_sender : soh ∉ params.senderCompId)
    (target_ne_nil : params.targetCompId ≠ []) (soh_target : soh ∉ params.targetCompId)
    (time_ne_nil : time ≠ []) (soh_time : soh ∉ time) :
    ∀ field ∈ headerFields params type seqNum time, field.WellFormed := by
  intro field mem
  simp only [headerFields, List.mem_cons, List.not_mem_nil, or_false] at mem
  rcases mem with rfl | rfl | rfl | rfl | rfl
  · exact ⟨by norm_num, type_ne_nil, soh_type⟩
  · exact wellFormed_number (by norm_num) (toInt64 seqNum)
  · exact ⟨by norm_num, sender_ne_nil, soh_sender⟩
  · exact ⟨by norm_num, target_ne_nil, soh_target⟩
  · exact ⟨by norm_num, time_ne_nil, soh_time⟩

/-- A factory as a session starts with. -/
def fresh (params : SessionParameters) (clock : Clock) : MessageFactory :=
  ⟨{}, params, {}, clock⟩

end ReadBack

end MessageFactory

end FixEngine
