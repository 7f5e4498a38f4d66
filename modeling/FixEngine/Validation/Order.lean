import FixEngine.Validation.Builders
import FixEngine.Validation.Conformance
import FixEngine.Wire.Strict

/-!
# The order of the header fields

The header check takes the first three fields of a message for BeginString, BodyLength and MsgType
and looks at nothing but their values. The tags themselves are looked up wherever they stand, and
the scratch bits do not remember positions, so a message that is complete is accepted with other
fields in front as soon as their values pass for those of the standard ones. In a frame the framer
has fixed the first two fields, and only the third can be such an impostor.
-/

namespace FixEngine

/-- BeginString, BodyLength and MsgType come first. -/
def HeaderInOrder (message : Message) : Prop := (message.take 3).map Field.tag = [8, 9, 35]

/-- MsgType stands in third position. -/
def TypeThird (message : Message) : Prop := (message[2]?).map Field.tag = some 35

/-- A place at the front of a message: the tag that belongs there, and what the header check asks of
the value that stands there. -/
structure HeaderPlace where
  position : ℕ
  tag : ℕ
  passes : Bytes → Bool

/-- The places of BeginString, BodyLength and MsgType. The third value is compared with the last
MsgType of the message. -/
def headerPlaces (message : Message) : List HeaderPlace :=
  [⟨0, 8, fun value => value == Validator.defaultFixVersion⟩, ⟨1, 9, isIntType⟩,
    ⟨2, 35, fun value => Message.firstValue? message.reverse 35 == some value⟩]

/-- In none of the three places stands a field with another tag and a value that passes for the
standard one. -/
def NoImpostor (message : Message) : Prop :=
  ∀ place ∈ headerPlaces message, ∀ field, message[place.position]? = some field →
    place.passes field.value = true → field.tag = place.tag

/-- The values in the three places pass, under whatever tags. -/
def PassesForHeader (message : Message) : Prop :=
  ∀ place ∈ headerPlaces message, ∃ field, message[place.position]? = some field ∧
    place.passes field.value = true

/-- What the rest of the check asks: the fields are those of the schemas, in any order, and the last
MsgSeqNum and CompIDs are those the session expects. -/
structure Complete (params : SessionParameters) (message : Message) (type : Bytes)
    (schema : MessageSchema) : Prop where
  type_eq : Message.firstValue? message.reverse 35 = some type
  registered : Registry.get type = some schema
  number : ∃ text, Message.firstValue? message.reverse 34 = some text ∧ isIntType text = true
  sender : Message.firstValue? message.reverse 49 = some params.targetCompId
  target : Message.firstValue? message.reverse 56 = some params.senderCompId
  accounted : ∀ entry ∈ schema.table, ∃ start stop, Accounts message entry start stop
  covered : ∀ index < message.length, ∃ entry ∈ schema.table, ∃ start stop,
    Accounts message entry start stop ∧ start ≤ index ∧ index < stop

section Places

variable {message : Message}

theorem headerInOrder_iff : HeaderInOrder message ↔
    ∀ place ∈ headerPlaces message, (message[place.position]?).map Field.tag = some place.tag := by
  simp only [headerPlaces, List.forall_mem_cons, List.not_mem_nil, false_imp_iff]
  rcases message with _ | ⟨first, _ | ⟨second, _ | ⟨third, rest⟩⟩⟩ <;> simp [HeaderInOrder]

theorem HeaderInOrder.noImpostor (inOrder : HeaderInOrder message) : NoImpostor message := by
  intro place mem field found _
  have tagEq := headerInOrder_iff.mp inOrder place mem
  rwa [found, Option.map_some, Option.some.injEq] at tagEq

/-- Three values that pass, and no impostor. -/
theorem NoImpostor.inOrder (noImpostor : NoImpostor message) (passes : PassesForHeader message) :
    HeaderInOrder message := by
  apply headerInOrder_iff.mpr
  intro place mem
  rcases passes place mem with ⟨field, found, pass⟩
  rw [found, Option.map_some, noImpostor place mem field found pass]

end Places

namespace Validator

variable {params : SessionParameters} {message : Message} {type : Bytes} {schema : MessageSchema}

theorem accepted_iff_complete : Accepted params (makeValidMessageView message) type schema ↔
    PassesForHeader message ∧ Complete params message type schema := by
  have typeSlot := @slot_makeValidMessageView (35, HeaderCache.msgType)
    (by simp [HeaderCache.slots]) message
  have numberSlot := @slot_makeValidMessageView (34, HeaderCache.msgSeqNumText)
    (by simp [HeaderCache.slots]) message
  have senderSlot := @slot_makeValidMessageView (49, HeaderCache.senderCompId)
    (by simp [HeaderCache.slots]) message
  have targetSlot := @slot_makeValidMessageView (56, HeaderCache.targetCompId)
    (by simp [HeaderCache.slots]) message
  simp only at typeSlot numberSlot senderSlot targetSlot
  constructor
  · rintro ⟨typeEq, registered, ⟨⟨first, atFirst, version⟩, ⟨second, atSecond, length⟩,
      ⟨third, atThird, sameType⟩, number, sender, target⟩, accounted, covered⟩
    rw [typeSlot] at typeEq
    rw [numberSlot] at number
    rw [senderSlot] at sender
    rw [targetSlot] at target
    refine ⟨?_, typeEq, registered, number, sender, target, accounted, covered⟩
    intro place mem
    simp only [headerPlaces, List.mem_cons, List.not_mem_nil, or_false] at mem
    rcases mem with rfl | rfl | rfl
    · exact ⟨first, atFirst, by simp [version]⟩
    · exact ⟨second, atSecond, length⟩
    · exact ⟨third, atThird, by simp [typeEq, sameType]⟩
  · rintro ⟨passes, complete⟩
    rcases passes _ (List.mem_cons_self ..) with ⟨first, atFirst, version⟩
    rcases passes _ (List.mem_cons_of_mem _ (List.mem_cons_self ..)) with ⟨second, atSecond, length⟩
    rcases passes _ (List.mem_cons_of_mem _ (List.mem_cons_of_mem _ (List.mem_cons_self ..))) with
      ⟨third, atThird, sameType⟩
    rw [complete.type_eq, beq_iff_eq, Option.some.injEq] at sameType
    refine ⟨typeSlot.trans complete.type_eq, complete.registered, ?_, complete.accounted,
      complete.covered⟩
    refine ⟨⟨first, atFirst, eq_of_beq version⟩, ⟨second, atSecond, length⟩,
      ⟨third, atThird, sameType.symm⟩, ?_, senderSlot.trans complete.sender,
      targetSlot.trans complete.target⟩
    rw [numberSlot]
    exact complete.number

variable {validator : Validator}

/-- For a complete message acceptance is a matter of the first three values. -/
theorem accepted_iff_passes (complete : Complete params message type schema) :
    (validator.validateMessage (makeValidMessageView message) params).results.errors = [] ↔
      PassesForHeader message := by
  rw [Validator.accepted_iff]
  constructor
  · rintro ⟨type, schema, accepted⟩
    exact (accepted_iff_complete.mp accepted).1
  · intro passes
    exact ⟨type, schema, accepted_iff_complete.mpr ⟨passes, complete⟩⟩

/-- What is accepted without an impostor is in order. -/
theorem inOrder_of_accepted (noImpostor : NoImpostor message)
    (accepted :
      (validator.validateMessage (makeValidMessageView message) params).results.errors = []) :
    HeaderInOrder message := by
  rcases (Validator.accepted_iff _ _ _).mp accepted with ⟨type, schema, accepted⟩
  exact noImpostor.inOrder (accepted_iff_complete.mp accepted).1

/-- The first two places of a frame hold the standard fields, with values that pass. -/
theorem places_of_frame {frame : Bytes} (isFrame : Reference.IsFrame frame)
    (parsed : Parser.parse frame = (message, [])) :
    ∃ digits rest, message = ⟨8, defaultFixVersion⟩ :: ⟨9, digits⟩ :: rest ∧
      isIntType digits = true := by
  have accepted : (Parser.parse frame).2 = [] := by rw [parsed]
  rcases parse_frame isFrame accepted with ⟨digits, rest, messageEq, nonempty, allDigits⟩
  rw [parsed] at messageEq
  exact ⟨digits, rest, messageEq, isIntType_of_digits nonempty allDigits⟩

section Frames

variable {digits : Bytes} {rest : List Field}

theorem headerInOrder_frame (split : message = ⟨8, defaultFixVersion⟩ :: ⟨9, digits⟩ :: rest) :
    HeaderInOrder message ↔ TypeThird message := by
  rw [split]
  rcases rest with _ | ⟨third, rest⟩ <;> simp [HeaderInOrder, TypeThird]

theorem noImpostor_frame (split : message = ⟨8, defaultFixVersion⟩ :: ⟨9, digits⟩ :: rest) :
    NoImpostor message ↔ ∀ third, message[2]? = some third →
      Message.firstValue? message.reverse 35 = some third.value → third.tag = 35 := by
  constructor
  · intro noImpostor third found sameType
    refine noImpostor ⟨2, 35, fun value => Message.firstValue? message.reverse 35 == some value⟩
      ?_ third found ?_
    · simp [headerPlaces]
    · simp [sameType]
  · intro third place mem field found pass
    simp only [headerPlaces, List.mem_cons, List.not_mem_nil, or_false] at mem
    rcases mem with rfl | rfl | rfl
    · rw [split, List.getElem?_cons_zero, Option.some.injEq] at found
      rw [← found]
    · rw [split, List.getElem?_cons_succ, List.getElem?_cons_zero, Option.some.injEq] at found
      rw [← found]
    · exact third field found (eq_of_beq pass)

/-- In a frame the third value decides. -/
theorem passes_of_impostor (split : message = ⟨8, defaultFixVersion⟩ :: ⟨9, digits⟩ :: rest)
    (isInt : isIntType digits = true) (impostor : ¬NoImpostor message) : PassesForHeader message := by
  rw [noImpostor_frame split] at impostor
  simp only [not_forall] at impostor
  rcases impostor with ⟨third, found, sameType, -⟩
  intro place mem
  simp only [headerPlaces, List.mem_cons, List.not_mem_nil, or_false] at mem
  rcases mem with rfl | rfl | rfl
  · exact ⟨⟨8, defaultFixVersion⟩, by rw [split]; rfl, by simp⟩
  · exact ⟨⟨9, digits⟩, by rw [split]; rfl, isInt⟩
  · exact ⟨third, found, by simp [sameType]⟩

end Frames

/-- Acceptance tells that the header is in order as long as no impostor stands in it; for a complete
message whose three values pass that is exact. In a frame the header is in order when MsgType is
third, only the third field can be an impostor, and for a complete message its absence is exact. -/
theorem validateMessage_inOrder (validator : Validator) (params : SessionParameters)
    (message : Message) :
    (NoImpostor message →
      (validator.validateMessage (makeValidMessageView message) params).results.errors = [] →
        HeaderInOrder message) ∧
    (∀ type schema, Complete params message type schema →
      (((validator.validateMessage (makeValidMessageView message) params).results.errors = [] →
          HeaderInOrder message) ↔ (PassesForHeader message → NoImpostor message))) ∧
    ∀ ops frame, Framer.History.fresh.Legal ops →
      frame ∈ (Framer.History.fresh.run ops).consumed ++
        (Framer.History.fresh.run ops).framer.queuedMessages →
      Parser.parse frame = (message, []) →
        (HeaderInOrder message ↔ TypeThird message) ∧
        (NoImpostor message ↔ ∀ third, message[2]? = some third →
          Message.firstValue? message.reverse 35 = some third.value → third.tag = 35) ∧
        ∀ type schema, Complete params message type schema →
          (((validator.validateMessage (makeValidMessageView message) params).results.errors = [] →
              TypeThird message) ↔ NoImpostor message) := by
  refine ⟨inOrder_of_accepted, ?_, ?_⟩
  · intro type schema complete
    rw [accepted_iff_passes complete]
    constructor
    · intro ordered passes
      exact (ordered passes).noImpostor
    · intro noImpostor passes
      exact (noImpostor passes).inOrder passes
  · intro ops frame legal delivered parsed
    rcases places_of_frame (isFrame_of_delivered legal delivered) parsed with
      ⟨digits, rest, split, isInt⟩
    refine ⟨headerInOrder_frame split, noImpostor_frame split, ?_⟩
    intro type schema complete
    rw [accepted_iff_passes complete, ← headerInOrder_frame split]
    constructor
    · intro ordered
      by_contra impostor
      exact impostor (ordered (passes_of_impostor split isInt impostor)).noImpostor
    · intro noImpostor passes
      exact noImpostor.inOrder passes

/-- A Heartbeat whose TestReqID is `0`, as its type is, and stands where MsgType belongs. -/
def lateType : Bytes :=
  ascii "8=FIX.4.4\x019=33\x01112=0\x0135=0\x0149=B\x0156=A\x0134=7\x0152=Now\x0110=098\x01"

/-- The same with MsgType in its place. -/
def earlyType : Bytes :=
  ascii "8=FIX.4.4\x019=33\x0135=0\x01112=0\x0149=B\x0156=A\x0134=7\x0152=Now\x0110=098\x01"

/-- With MsgType in its place there is no impostor; the other frame has one. -/
theorem validateMessage_inOrder_types :
    HeaderInOrder (Parser.parse earlyType).1 ∧ ¬NoImpostor (Parser.parse lateType).1 := by
  have accepts : ∀ frame ∈ [earlyType, lateType],
      (({} : Validator).validateMessage (makeValidMessageView (Parser.parse frame).1)
        hopParams).results.errors = [] := by
    decide +kernel
  rcases validateMessage_inOrder {} hopParams (Parser.parse earlyType).1 with ⟨ordered, -, -⟩
  rcases validateMessage_inOrder {} hopParams (Parser.parse lateType).1 with ⟨-, -, framed⟩
  constructor
  · refine ordered ?_ (accepts earlyType (by simp))
    intro place mem field found
    simp only [headerPlaces, List.mem_cons, List.not_mem_nil, or_false] at mem
    rcases mem with rfl | rfl | rfl
    all_goals
      intro _
      have tagEq := congrArg (Option.map Field.tag) found
      rw [Option.map_some] at tagEq
      exact Option.some.inj (tagEq.symm.trans (by decide +kernel))
  · have late := accepts lateType (by simp)
    rcases (Validator.accepted_iff _ _ _).mp late with ⟨type, schema, accepted⟩
    rcases framed [.append lateType] lateType (by simp [Framer.History.Legal]) (by decide +kernel)
      (Prod.ext rfl (by decide +kernel)) with ⟨-, -, decides⟩
    intro noImpostor
    have third := (decides type schema (accepted_iff_complete.mp accepted).2).mpr noImpostor late
    rw [TypeThird] at third
    exact absurd third (by decide +kernel)

/-- The framer cuts the other frame, it is parsed without errors and accepted. -/
theorem validateMessage_lateType :
    (Framer.History.fresh.run [.append lateType]).framer.queuedMessages = [lateType] ∧
      (Parser.parse lateType).2 = [] ∧
      (({} : Validator).validateMessage (makeValidMessageView (Parser.parse lateType).1)
        hopParams).results.errors = [] ∧
      ¬HeaderInOrder (Parser.parse lateType).1 ∧
      ((Parser.parse lateType).1[2]?).map Field.tag = some 112 := by
  refine ⟨by decide +kernel, by decide +kernel, by decide +kernel, ?_, by decide +kernel⟩
  rw [HeaderInOrder]
  decide +kernel

end Validator

end FixEngine
