import FixEngine.Outbound.Resending
import FixEngine.Validation.Conformance

/-!
# The integers of a valid message

The validator lets a text pass as an integer when digits follow an optional sign. The session reads
the same texts with `std::from_chars` into unsigned variables and does not look at the outcome, so
the two agree on the texts without a sign whose number fits into the variable, and on no others.
-/

namespace FixEngine

section Texts

/-- The integer that a text with an optional sign denotes. -/
def intValue (text : Bytes) : ℤ :=
  (if text.head? = some 45 then -1 else 1) * digitsValue (text.drop (firstNumIdx text))

/-- `std::from_chars` into a variable of `bits` bits takes the whole text and stores its integer. -/
def ConvertedExactly (bits : ℕ) (text : Bytes) : Prop :=
  ∃ number, (fromChars bits text).whole text = some number ∧ (number : ℤ) = intValue text

/-- No sign, and a number that a variable of `bits` bits holds. -/
def Unsigned (bits : ℕ) (text : Bytes) : Prop := firstNumIdx text = 0 ∧ intValue text < 2 ^ bits

variable {bits : ℕ} {text : Bytes}

theorem firstNumIdx_cases (text : Bytes) :
    (firstNumIdx text = 0 ∧ text.head? ≠ some 45) ∨
      ∃ sign rest, text = sign :: rest ∧ firstNumIdx text = 1 ∧ isDigit sign = false := by
  rcases text with _ | ⟨first, rest⟩
  · left
    simp [firstNumIdx]
  · by_cases plus : first = 43
    · right
      subst plus
      exact ⟨43, rest, rfl, rfl, by decide⟩
    · by_cases minus : first = 45
      · right
        subst minus
        exact ⟨45, rest, rfl, rfl, by decide⟩
      · left
        refine ⟨?_, by simpa using minus⟩
        rw [firstNumIdx]
        · intro tail same
          exact plus (List.cons.inj same).1
        · intro tail same
          exact minus (List.cons.inj same).1

theorem intValue_of_noSign (noSign : firstNumIdx text = 0) : intValue text = digitsValue text := by
  rcases firstNumIdx_cases text with ⟨_, noMinus⟩ | ⟨_, _, _, signed, _⟩
  · simp [intValue, noSign, noMinus]
  · omega

/-- A text that the validator takes for an integer is converted exactly when it has no sign and
fits. -/
theorem convertedExactly_iff (isInt : isIntType text = true) :
    ConvertedExactly bits text ↔ Unsigned bits text := by
  rw [ConvertedExactly, Unsigned]
  rcases firstNumIdx_cases text with ⟨noSign, _⟩ | ⟨sign, rest, split, signed, notDigit⟩
  · have value := intValue_of_noSign noSign
    simp only [isIntType, noSign, List.drop_zero, Bool.and_eq_true, decide_eq_true_eq,
      List.all_eq_true] at isInt
    rcases isInt with ⟨nonempty, digits⟩
    constructor
    · rintro ⟨number, read, same⟩
      rcases whole_fromChars_eq_some.mp read with ⟨_, _, fits, _⟩
      refine ⟨noSign, ?_⟩
      rw [value]
      exact_mod_cast fits
    · rintro ⟨_, fits⟩
      rw [value] at fits ⊢
      have inRange : digitsValue text < 2 ^ bits := by exact_mod_cast fits
      exact ⟨digitsValue text, whole_fromChars_eq_some.mpr ⟨nonempty, digits, inRange, rfl⟩, rfl⟩
  · constructor
    · rintro ⟨number, read, _⟩
      have digits := (whole_fromChars_eq_some.mp read).2.1
      rw [digits sign (by simp [split])] at notDigit
      cases notDigit
    · rintro ⟨noSign, _⟩
      omega

end Texts

section Cache

variable {message before after : Message} {field : Field}

theorem foldl_record_number (noNumber : ∀ other ∈ message, other.tag ≠ 34) (cache : HeaderCache) :
    (message.foldl HeaderCache.record cache).msgSeqNum = cache.msgSeqNum ∧
      (message.foldl HeaderCache.record cache).hasMsgSeqNum = cache.hasMsgSeqNum := by
  induction message generalizing cache with
  | nil => exact ⟨rfl, rfl⟩
  | cons first rest ih =>
      have kept : (cache.record first).msgSeqNum = cache.msgSeqNum ∧
          (cache.record first).hasMsgSeqNum = cache.hasMsgSeqNum := by
        have other := noNumber first (List.mem_cons_self ..)
        rw [HeaderCache.record]
        split <;> simp_all
      have later := ih (fun other mem => noNumber other (List.mem_cons_of_mem _ mem))
        (cache.record first)
      rw [List.foldl_cons]
      exact ⟨later.1.trans kept.1, later.2.trans kept.2⟩

/-- The number in the header cache comes from the only field with tag 34. -/
theorem number_makeValidMessageView (split : message = before ++ field :: after)
    (isNumber : field.tag = 34) (others : ∀ other ∈ before ++ after, other.tag ≠ 34) :
    (makeValidMessageView message).headerCache.msgSeqNum =
        (fromChars 64 field.value).value.getD 0 ∧
      (makeValidMessageView message).headerCache.hasMsgSeqNum =
        ((fromChars 64 field.value).whole field.value).isSome := by
  have recorded : ∀ cache : HeaderCache, cache.record field = cache.recordMsgSeqNum field.value := by
    intro cache
    simp only [HeaderCache.record, isNumber]
  have front := foldl_record_number (fun other mem => others other (List.mem_append_left _ mem)) {}
  have rear := foldl_record_number (fun other mem => others other (List.mem_append_right _ mem))
    ((before.foldl HeaderCache.record {}).recordMsgSeqNum field.value)
  simp only [makeValidMessageView, split, List.foldl_append, List.foldl_cons, recorded]
  rw [rear.1, rear.2]
  simp [HeaderCache.recordMsgSeqNum, front.1, front.2]

end Cache

section Messages

/-- The integer fields that the handler of a type reads, with the widths of its variables. -/
def usedIntegers (type : Bytes) : List (ℕ × ℕ) :=
  if type = ascii "2" then [(7, 32), (16, 32)]
  else if type = ascii "4" then [(36, 64)]
  else if type = ascii "A" then [(108, 32)]
  else []

/-- Whatever the session uses as a number is the integer that the message has. -/
structure IntegersExact (message : Message) : Prop where
  numbered : (makeValidMessageView message).headerCache.hasMsgSeqNum = true
  number : ∃ text, message.firstValue? 34 = some text ∧
    ((makeValidMessageView message).headerCache.msgSeqNum : ℤ) = intValue text
  body : ∀ type, message.firstValue? 35 = some type → ∀ used ∈ usedIntegers type,
    ∃ text, message.firstValue? used.1 = some text ∧ ConvertedExactly used.2 text

/-- The number and the integers of the body have no sign and fit into the variables. -/
def IntegersUnsigned (message : Message) : Prop :=
  ∀ type, message.firstValue? 35 = some type → ∀ used ∈ (34, 64) :: usedIntegers type,
    ∀ text, message.firstValue? used.1 = some text → Unsigned used.2 text

variable {params : SessionParameters} {message : Message} {type : Bytes} {schema : MessageSchema}

/-- The fields that handlers read as integers are required ones of integer type. -/
theorem mem_table_of_used (registered : Registry.get type = some schema) {used : ℕ × ℕ}
    (isUsed : used ∈ (34, 64) :: usedIntegers type) :
    ∃ entry ∈ schema.table, entry.tag = used.1 ∧ entry.type = .int ∧ entry.presence = .required := by
  rcases List.mem_cons.mp isUsed with rfl | inBody
  · exact ⟨.plain 34 .int .required,
      List.mem_append_left _ (by simp [Schema.standardHeader]), rfl, rfl, rfl⟩
  · have body : ∀ entry ∈ schema.body, entry ∈ schema.table := fun entry mem =>
      List.mem_append_right _ (List.mem_append_left _ mem)
    rw [usedIntegers] at inBody
    split at inBody
    · next isResend =>
        subst isResend
        cases registered
        simp only [List.mem_cons, List.not_mem_nil, or_false] at inBody
        rcases inBody with rfl | rfl
        · exact ⟨.plain 7 .int .required, body _ (by simp [Schema.resendRequest]), rfl, rfl, rfl⟩
        · exact ⟨.plain 16 .int .required, body _ (by simp [Schema.resendRequest]), rfl, rfl, rfl⟩
    split at inBody
    · next isReset =>
        subst isReset
        cases registered
        cases List.mem_singleton.mp inBody
        exact ⟨.plain 36 .int .required, body _ (by simp [Schema.sequenceReset]), rfl, rfl, rfl⟩
    split at inBody
    · next isLogon =>
        subst isLogon
        cases registered
        cases List.mem_singleton.mp inBody
        exact ⟨.plain 108 .int .required, body _ (by simp [Schema.logon]), rfl, rfl, rfl⟩
    · cases inBody

/-- An accepted message has each of these fields, with a text of integer type. -/
theorem found_of_used {Counts : Bytes → ℕ → Prop} {Run : List FieldSchema → Message → Prop}
    (conforms : Conforms Counts Run schema.table message)
    (registered : Registry.get type = some schema) {used : ℕ × ℕ}
    (isUsed : used ∈ (34, 64) :: usedIntegers type) :
    ∃ text, message.firstValue? used.1 = some text ∧ isIntType text = true := by
  rcases mem_table_of_used registered isUsed with ⟨entry, mem, isTag, isInt, required⟩
  rcases conforms.required entry mem required with ⟨field, inMessage, same⟩
  rcases firstValue?_of_mem inMessage (same.trans isTag) with ⟨text, found⟩
  rcases exists_of_firstValue? found with ⟨first, firstMem, firstTag, rfl⟩
  have typed := conforms.typed entry mem (by simp [isInt]) first firstMem (firstTag.trans isTag.symm)
  rw [isInt] at typed
  exact ⟨first.value, found, typed⟩

/-- The number of an accepted message, and where the header cache has it from. -/
theorem number_of_conforms {Counts : Bytes → ℕ → Prop} {Run : List FieldSchema → Message → Prop}
    (conforms : Conforms Counts Run schema.table message)
    (registered : Registry.get type = some schema) :
    ∃ text, message.firstValue? 34 = some text ∧ isIntType text = true ∧
      ((makeValidMessageView message).headerCache.hasMsgSeqNum = true ∧
          ((makeValidMessageView message).headerCache.msgSeqNum : ℤ) = intValue text ↔
        ConvertedExactly 64 text) := by
  rcases found_of_used conforms registered (List.mem_cons_self ..) with ⟨text, found, isInt⟩
  rcases exists_of_firstValue? found with ⟨field, mem, isNumber, rfl⟩
  rcases List.append_of_mem mem with ⟨before, after, split⟩
  rcases mem_table_of_used registered (List.mem_cons_self ..) with ⟨entry, inTable, isTag, _⟩
  have once := conforms.once field mem (by
    rw [isNumber, ← isTag]
    exact List.mem_map_of_mem inTable)
  have others := others_of_countP split once
  rw [isNumber] at others
  rcases number_makeValidMessageView split isNumber others with ⟨numberEq, hasEq⟩
  refine ⟨field.value, found, isInt, ?_⟩
  rw [numberEq, hasEq]
  constructor
  · rintro ⟨isSome, same⟩
    rcases Option.isSome_iff_exists.mp isSome with ⟨number, read⟩
    rw [value_of_whole read] at same
    exact ⟨number, read, same⟩
  · rintro ⟨number, read, same⟩
    rw [read, value_of_whole read]
    exact ⟨rfl, same⟩

/-- The integers of an accepted message mean the same to the session exactly when those it uses
have no sign and fit into its variables. -/
theorem integers_exact_iff (validator : Validator) (params : SessionParameters) (message : Message)
    (accepted : (validator.validateMessage (makeValidMessageView message) params).results.errors = []) :
    IntegersExact message ↔ IntegersUnsigned message := by
  rw [Validator.accepted_iff] at accepted
  rcases accepted with ⟨_, _, accounted⟩
  rcases (Validator.conforming_of_accepted accounted).1 with
    ⟨type, schema, typeEq, registered, _, _, conforms⟩
  rcases number_of_conforms conforms registered with ⟨text, found, isInt, numberIff⟩
  constructor
  · intro exact other sameType used isUsed value foundValue
    rw [typeEq] at sameType
    cases sameType
    rcases List.mem_cons.mp isUsed with rfl | inBody
    · rw [found] at foundValue
      cases foundValue
      rcases exact.number with ⟨same, foundSame, number⟩
      rw [found] at foundSame
      cases foundSame
      exact (convertedExactly_iff isInt).mp (numberIff.mp ⟨exact.numbered, number⟩)
    · rcases exact.body type typeEq used inBody with ⟨same, foundSame, converted⟩
      rcases found_of_used conforms registered isUsed with ⟨again, foundAgain, againInt⟩
      rw [foundValue] at foundSame foundAgain
      cases foundSame
      cases foundAgain
      exact (convertedExactly_iff againInt).mp converted
  · intro unsigned
    have number := numberIff.mpr ((convertedExactly_iff isInt).mpr
      (unsigned type typeEq _ (List.mem_cons_self ..) text found))
    refine ⟨number.1, ⟨text, found, number.2⟩, ?_⟩
    intro other sameType used inBody
    rw [typeEq] at sameType
    cases sameType
    rcases found_of_used conforms registered (List.mem_cons_of_mem _ inBody) with
      ⟨value, foundValue, valueInt⟩
    exact ⟨value, foundValue, (convertedExactly_iff valueInt).mpr
      (unsigned type typeEq used (List.mem_cons_of_mem _ inBody) value foundValue)⟩

/-- A SequenceReset of the peer. -/
def resetTo (newSeqNo : Bytes) : Message :=
  [⟨8, ascii "FIX.4.4"⟩, ⟨9, ascii "5"⟩, ⟨35, ascii "4"⟩, ⟨49, ascii "B"⟩, ⟨56, ascii "A"⟩,
    ⟨34, ascii "7"⟩, ⟨52, ascii "Now"⟩, ⟨36, newSeqNo⟩, ⟨10, ascii "000"⟩]

theorem unsigned_resetTo : IntegersUnsigned (resetTo (ascii "12")) := by
  intro type typeEq used isUsed text found
  have isReset : (resetTo (ascii "12")).firstValue? 35 = some (ascii "4") := by decide
  rw [isReset, Option.some.injEq] at typeEq
  subst typeEq
  have fields : (34, 64) :: usedIntegers (ascii "4") = [(34, 64), (36, 64)] := by decide
  rw [fields] at isUsed
  simp only [List.mem_cons, List.not_mem_nil, or_false] at isUsed
  rcases isUsed with rfl | rfl
  · have number : (resetTo (ascii "12")).firstValue? 34 = some (ascii "7") := by decide
    rw [number, Option.some.injEq] at found
    rw [← found]
    exact ⟨by decide, by decide⟩
  · have newSeqNo : (resetTo (ascii "12")).firstValue? 36 = some (ascii "12") := by decide
    rw [newSeqNo, Option.some.injEq] at found
    rw [← found]
    exact ⟨by decide, by decide⟩

theorem integers_exact_iff_reset : IntegersExact (resetTo (ascii "12")) :=
  (integers_exact_iff {} Validator.hopParams _ (by decide +kernel)).mpr unsigned_resetTo

/-- A NewSeqNo with a sign is accepted, and read as zero. -/
theorem integers_exact_signed :
    (({} : Validator).validateMessage (makeValidMessageView (resetTo (ascii "+12")))
        Validator.hopParams).results.errors = [] ∧
      intValue (ascii "+12") = 12 ∧
      Session.newSeqNo (makeValidMessageView (resetTo (ascii "+12"))) = 0 ∧
      ¬IntegersExact (resetTo (ascii "+12")) := by
  refine ⟨by decide +kernel, by decide, by decide, ?_⟩
  intro exact
  rcases exact.body (ascii "4") rfl (36, 64) (by decide) with ⟨text, found, number, read, _⟩
  have isText : (resetTo (ascii "+12")).firstValue? 36 = some (ascii "+12") := by decide
  rw [isText] at found
  cases found
  have unread : (fromChars 64 (ascii "+12")).whole (ascii "+12") = none := by decide
  rw [unread] at read
  cases read

end Messages

namespace Session

variable {message : Message} {type : Bytes} {text : Bytes}

/-- The numbers that the handlers of a ResendRequest and a SequenceReset go on with. -/
theorem requestedNumber_eq {tag : ℕ} (found : message.firstValue? tag = some text)
    (converted : ConvertedExactly 32 text) : (requestedNumber message tag : ℤ) = intValue text := by
  rcases converted with ⟨number, read, same⟩
  rw [requestedNumber, found, Option.bind_some, value_of_whole read]
  exact same

theorem newSeqNo_eq (found : message.firstValue? 36 = some text)
    (converted : ConvertedExactly 64 text) :
    (newSeqNo (makeValidMessageView message) : ℤ) = intValue text := by
  rcases converted with ⟨number, read, same⟩
  rw [newSeqNo, makeValidMessageView, found, Option.bind_some, value_of_whole read]
  exact same

/-- The interval that a Logon sets. -/
theorem validateHeartbeatInt_eq {session after : Session} (converted : ConvertedExactly 32 text)
    (taken : session.validateHeartbeatInt text = (true, after)) :
    (after.params.heartBeatInt : ℤ) = intValue text := by
  rcases converted with ⟨number, read, same⟩
  simp only [validateHeartbeatInt, value_of_whole read, Option.getD_some] at taken
  split at taken
  · cases taken
  split at taken
  · cases taken
  · cases taken
    exact same

end Session

end FixEngine
