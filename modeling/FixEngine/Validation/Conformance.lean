import FixEngine.Validation.Acceptance

/-!
# The validator is sound and complete for its schemas

`Conforming` says what a message of a registered type is, without passes, positions or scratch bits:
which fields occur, how often and with which values, and that the fields of a group stand in runs
behind its count. A validator, whatever it was used for before, accepts only conforming messages,
and all of those that start with the standard fields and in whose groups each run starts with the
first field of the group.
-/

namespace FixEngine

open FieldSchema (levelTags groupTags Flat Grouped Unambiguous)

section Counts

/-- A plain digit string for a number that an `int` holds. -/
def PlainCount (text : Bytes) (count : ℕ) : Prop :=
  text ≠ [] ∧ (∀ b ∈ text, isDigit b = true) ∧ digitsValue text = count ∧ count ≤ 2 ^ 31 - 1

/-- The same, or zeros behind a minus sign. -/
def CountText (text : Bytes) (count : ℕ) : Prop :=
  PlainCount text count ∨
    (count = 0 ∧ ∃ zeros, text = 45 :: zeros ∧ zeros ≠ [] ∧ ∀ b ∈ zeros, b = 48)

theorem digitsValue_eq_zero {text : Bytes} (digits : ∀ b ∈ text, isDigit b = true) :
    digitsValue text = 0 ↔ ∀ b ∈ text, b = 48 := by
  induction text using List.reverseRecOn with
  | nil => simp [digitsValue]
  | append_singleton front last ih =>
      have before := ih fun b mem => digits b (by simp [mem])
      have digit := isDigit_iff.mp (digits last (by simp))
      have isZero : last = 48 ↔ last.toNat = 48 := by
        constructor
        · rintro rfl
          rfl
        · intro same
          exact UInt8.toNat_inj.mp same
      simp only [digitsValue, List.foldl_append, List.foldl_cons, List.foldl_nil, List.mem_append,
        List.mem_singleton] at before ⊢
      constructor
      · intro zero b mem
        rcases mem with inFront | rfl
        · exact before.mp (by omega) b inFront
        · exact isZero.mpr (by omega)
      · intro zeros
        have front := before.mpr fun b mem => zeros b (.inl mem)
        have rear := isZero.mp (zeros last (.inr rfl))
        omega

theorem takeWhile_eq_of_length {text : Bytes}
    (whole : (text.takeWhile isDigit).length = text.length) : ∀ b ∈ text, isDigit b = true :=
  List.takeWhile_eq_self_iff.mp ((List.takeWhile_prefix isDigit).eq_of_length whole)

/-- A number behind a minus sign is a count only when it is zero. -/
theorem parseInt_minus {rest : Bytes} {count : ℕ} :
    parseInt (45 :: rest) = some count ↔ count = 0 ∧ rest ≠ [] ∧ ∀ b ∈ rest, b = 48 := by
  have zeroDigit : isDigit 48 = true := by decide
  constructor
  · intro read
    simp only [parseInt, fromCharsSigned] at read
    by_cases noDigits : rest.takeWhile isDigit = []
    · simp [noDigits, CharsResult.whole] at read
    by_cases fits : digitsValue (rest.takeWhile isDigit) ≤ 2 ^ 31
    · simp only [noDigits, if_false, fits, if_true, CharsResult.whole, List.length_cons,
        Nat.add_right_cancel_iff] at read
      by_cases whole : (rest.takeWhile isDigit).length = rest.length
      · have digits := takeWhile_eq_of_length whole
        rw [takeWhile_isDigit_eq_self digits] at read noDigits
        simp only [if_true] at read
        have zero : digitsValue rest = 0 := by
          by_contra nonzero
          rcases Nat.exists_eq_succ_of_ne_zero nonzero with ⟨n, valueEq⟩
          rw [valueEq, show -((n.succ : ℕ) : ℤ) = Int.negSucc n from rfl] at read
          cases read
        rw [zero] at read
        refine ⟨by simpa using read.symm, noDigits, ?_⟩
        exact (digitsValue_eq_zero digits).mp zero
      · simp [whole] at read
    · simp only [noDigits, if_false, fits, CharsResult.whole] at read
      split at read <;> simp_all
  · rintro ⟨rfl, nonempty, zeros⟩
    have digits : ∀ b ∈ rest, isDigit b = true := by
      intro b mem
      rw [zeros b mem]
      exact zeroDigit
    have zero := (digitsValue_eq_zero digits).mpr zeros
    simp [parseInt, fromCharsSigned, takeWhile_isDigit_eq_self digits, nonempty, zero,
      CharsResult.whole]

theorem parseInt_plain {text : Bytes} {count : ℕ} (noMinus : text.head? ≠ some 45) :
    parseInt text = some count ↔ PlainCount text count := by
  have signed : fromCharsSigned 32 text =
      if text.takeWhile isDigit = [] then ⟨0, none⟩
      else if digitsValue (text.takeWhile isDigit) < 2 ^ 31 then
        ⟨(text.takeWhile isDigit).length, some (digitsValue (text.takeWhile isDigit) : ℤ)⟩
      else ⟨(text.takeWhile isDigit).length, none⟩ := by
    rw [fromCharsSigned]
    intro rest isMinus
    simp [isMinus] at noMinus
  constructor
  · intro read
    simp only [parseInt, signed] at read
    by_cases noDigits : text.takeWhile isDigit = []
    · simp only [noDigits, if_true, CharsResult.whole] at read
      split at read <;> simp_all
    by_cases fits : digitsValue (text.takeWhile isDigit) < 2 ^ 31
    · simp only [noDigits, if_false, fits, if_true, CharsResult.whole] at read
      by_cases whole : (text.takeWhile isDigit).length = text.length
      · have digits := takeWhile_eq_of_length whole
        rw [takeWhile_isDigit_eq_self digits] at read noDigits fits
        simp only [if_true] at read
        have value : digitsValue text = count := by simpa using read
        exact ⟨noDigits, digits, value, by omega⟩
      · simp [whole] at read
    · simp only [noDigits, if_false, fits, CharsResult.whole] at read
      split at read <;> simp_all
  · rintro ⟨nonempty, digits, rfl, small⟩
    have fits : digitsValue text < 2 ^ 31 := by omega
    simp only [parseInt, signed, takeWhile_isDigit_eq_self digits, nonempty, if_false, fits, if_true,
      CharsResult.whole]

theorem parseInt_eq_some_iff {text : Bytes} {count : ℕ} :
    parseInt text = some count ↔ CountText text count := by
  have minusNoDigit : isDigit 45 = false := by decide
  by_cases minus : text.head? = some 45
  · rcases text with _ | ⟨first, rest⟩
    · cases minus
    · simp only [List.head?_cons, Option.some.injEq] at minus
      subst minus
      rw [parseInt_minus, CountText]
      constructor
      · rintro ⟨isZero, nonempty, zeros⟩
        exact .inr ⟨isZero, rest, rfl, nonempty, zeros⟩
      · rintro (⟨_, digits, _⟩ | ⟨isZero, zeros, same, nonempty, areZeros⟩)
        · rw [digits 45 (List.mem_cons_self ..)] at minusNoDigit
          cases minusNoDigit
        · cases same
          exact ⟨isZero, nonempty, areZeros⟩
  · rw [parseInt_plain minus, CountText]
    constructor
    · exact .inl
    · rintro (plain | ⟨_, zeros, rfl, _⟩)
      · exact plain
      · exact absurd rfl minus

end Counts

/-- `HeaderCache::slots`, each with the tag it is kept for. -/
def HeaderCache.slots : List (ℕ × (HeaderCache → Option Bytes)) :=
  [(35, msgType), (49, senderCompId), (56, targetCompId), (52, sendingTime), (34, msgSeqNumText),
    (43, possDupFlag), (122, origSendingTime), (112, testReqId)]

section Cache

variable {message : Message}

/-- The cache keeps the last occurrence. -/
theorem slot_makeValidMessageView {slot : ℕ × (HeaderCache → Option Bytes)}
    (isSlot : slot ∈ HeaderCache.slots) (message : Message) :
    slot.2 (makeValidMessageView message).headerCache = Message.firstValue? message.reverse slot.1 := by
  have recorded : ∀ cache field, slot.2 (HeaderCache.record cache field) =
      if field.tag = slot.1 then some field.value else slot.2 cache := by
    intro cache field
    simp only [HeaderCache.slots, List.mem_cons, List.not_mem_nil, or_false] at isSlot
    rcases isSlot with rfl | rfl | rfl | rfl | rfl | rfl | rfl | rfl <;>
      simp only [HeaderCache.record] <;> split <;> simp_all [HeaderCache.recordMsgSeqNum]
  have initial : slot.2 {} = none := by
    simp only [HeaderCache.slots, List.mem_cons, List.not_mem_nil, or_false] at isSlot
    rcases isSlot with rfl | rfl | rfl | rfl | rfl | rfl | rfl | rfl <;> rfl
  simp only [makeValidMessageView]
  induction message using List.reverseRecOn with
  | nil => exact initial
  | append_singleton front last ih =>
      rw [List.foldl_append, List.foldl_cons, List.foldl_nil, recorded, ih, List.reverse_append]
      by_cases same : last.tag = slot.1
      · simp [Message.firstValue?, same]
      · simp [Message.firstValue?, same]

/-- The first occurrence of a tag that occurs once is the last one. -/
theorem firstValue?_reverse {tag : ℕ} (once : message.countP (·.tag = tag) ≤ 1) :
    Message.firstValue? message.reverse tag = message.firstValue? tag := by
  induction message with
  | nil => rfl
  | cons first rest ih =>
      rw [List.countP_cons] at once
      simp only [Message.firstValue?, List.reverse_cons, List.find?_append] at ih ⊢
      by_cases same : first.tag = tag
      · have elsewhere : rest.countP (·.tag = tag) = 0 := by
          simp only [same, decide_true, if_true] at once
          omega
        have none : rest.reverse.find? (·.tag = tag) = none := by
          rw [List.find?_eq_none]
          intro field mem
          exact List.countP_eq_zero.mp elsewhere field (List.mem_reverse.mp mem)
        simp [none, same]
      · have later := ih (by omega)
        cases found : rest.reverse.find? (·.tag = tag) with
        | none => simpa [found, same] using later
        | some field => simpa [found, same] using later

end Cache

/-- The count field of a group with as many runs behind it, or neither. -/
def GroupPlaced (Counts : Bytes → ℕ → Prop) (Run : List FieldSchema → Message → Prop)
    (message : Message) (tag : ℕ) (fields : List FieldSchema) : Prop :=
  (∀ field ∈ message, field.tag ≠ tag ∧ field.tag ∉ levelTags fields) ∨
    ∃ (before : Message) (count : Field) (runs : List Message) (after : Message),
      message = before ++ count :: (runs.flatten ++ after) ∧ count.tag = tag ∧
        Counts count.value runs.length ∧ (∀ run ∈ runs, Run fields run) ∧
        ∀ field ∈ before ++ after, field.tag ∉ levelTags fields

/-- The fields of the message are those the table asks for. -/
structure Conforms (Counts : Bytes → ℕ → Prop) (Run : List FieldSchema → Message → Prop)
    (table : List FieldSchema) (message : Message) : Prop where
  known : ∀ field ∈ message, field.tag ∈ levelTags table ∨ field.tag ∈ groupTags table
  once : ∀ field ∈ message, field.tag ∈ levelTags table →
    message.countP (·.tag = field.tag) = 1
  required : ∀ entry ∈ table, entry.presence = .required → ∃ field ∈ message, field.tag = entry.tag
  typed : ∀ entry ∈ table, entry.type ≠ .group → ∀ field ∈ message, field.tag = entry.tag →
    validateType field.value entry.type = true
  groups : ∀ entry ∈ table, ∀ fields, entry.groupSchema = some fields →
    GroupPlaced Counts Run message entry.tag fields

/-- A message of a registered type, sent by the peer of a session with the given parameters. -/
def Conforming (Counts : Bytes → ℕ → Prop) (Run : List FieldSchema → Message → Prop)
    (params : SessionParameters) (message : Message) : Prop :=
  ∃ type schema, message.firstValue? 35 = some type ∧ Registry.get type = some schema ∧
    message.firstValue? 49 = some params.targetCompId ∧
    message.firstValue? 56 = some params.senderCompId ∧ Conforms Counts Run schema.table message

/-- A run of a group: some of its fields in order, all required ones among them. -/
def Selection (fields : List FieldSchema) (run : Message) : Prop := run ≠ [] ∧ Selects fields run

/-- A run that starts with the first field of the group. -/
def LeadingSelection (fields : List FieldSchema) (run : Message) : Prop :=
  Leads fields run ∧ Selects fields run

/-- The standard fields at the start of a message. -/
def StartsStandard (message : Message) : Prop :=
  ∃ first second third rest, message = first :: second :: third :: rest ∧ first.tag = 8 ∧
    first.value = Validator.defaultFixVersion ∧ second.tag = 9 ∧ third.tag = 35

/-- The walked runs as a list of selections. -/
theorem WalkedRuns.selections {fields : List FieldSchema} {count : ℕ} {taken after : Message}
    (runs : WalkedRuns fields count taken after) :
    ∃ parts : List Message, taken = parts.flatten ∧ parts.length = count ∧
      ∀ part ∈ parts, Selection fields part := by
  induction runs with
  | done => exact ⟨[], rfl, rfl, by simp⟩
  | @more count run rest after walked nonempty _ ih =>
      rcases ih with ⟨parts, takenEq, lengthEq, selections⟩
      refine ⟨run :: parts, by simp [takenEq], by simp [lengthEq], ?_⟩
      intro part mem
      rcases List.mem_cons.mp mem with rfl | inParts
      · exact ⟨nonempty, walked.selects⟩
      · exact selections part inParts

section Spans

variable {table : List FieldSchema} {message : Message} {entry other : FieldSchema} {start stop : ℕ}
  {field : Field}

/-- A position in the span of an entry holds its tag or lies in its group. -/
theorem Accounts.tag_at (accounts : Accounts message entry start stop) {index : ℕ}
    (low : start ≤ index) (high : index < stop) (found : message[index]? = some field) :
    (index = start ∧ field.tag = entry.tag) ∨
      (start < index ∧ ∃ fields, entry.groupSchema = some fields ∧ field.tag ∈ levelTags fields) := by
  cases accounts with
  | absent => omega
  | @plain before after first split earlier same =>
      have atStart : index = before.length := by omega
      left
      refine ⟨atStart, ?_⟩
      rw [atStart, split] at found
      simp only [List.getElem?_append_right (Nat.le_refl _), Nat.sub_self, List.getElem?_cons_zero,
        Option.some.injEq] at found
      rw [← found, same]
  | @group fields count before taken after first split earlier same isGroup counted hasFields runs =>
      rcases Nat.lt_or_eq_of_le low with inside | atStart
      · right
        refine ⟨inside, fields, hasFields, ?_⟩
        obtain ⟨offset, rfl⟩ : ∃ offset, index = before.length + (offset + 1) :=
          ⟨index - before.length - 1, by omega⟩
        rw [split, List.getElem?_append_right (by omega), Nat.add_sub_cancel_left,
          List.getElem?_cons_succ, List.getElem?_append_left (by omega)] at found
        exact runs.tag_mem (List.mem_of_getElem? found)
      · left
        refine ⟨atStart.symm, ?_⟩
        rw [← atStart, split] at found
        simp only [List.getElem?_append_right (Nat.le_refl _), Nat.sub_self,
          List.getElem?_cons_zero, Option.some.injEq] at found
        rw [← found, same]

theorem mem_groupTags {fields : List FieldSchema} {tag : ℕ} (mem : entry ∈ table)
    (hasFields : entry.groupSchema = some fields) (inGroup : tag ∈ levelTags fields) :
    tag ∈ groupTags table := by
  rw [groupTags, List.mem_flatMap]
  exact ⟨entry, mem, by simpa [hasFields] using inGroup⟩

theorem entry_unique (unambiguous : Unambiguous table) (mem : entry ∈ table) (again : other ∈ table)
    (same : entry.tag = other.tag) : entry = other :=
  List.inj_on_of_nodup_map unambiguous.distinct mem again same

theorem group_unique (unambiguous : Unambiguous table) (mem : entry ∈ table) (again : other ∈ table)
    {fields others : List FieldSchema} {tag : ℕ} (hasFields : entry.groupSchema = some fields)
    (hasOthers : other.groupSchema = some others) (inFields : tag ∈ levelTags fields)
    (inOthers : tag ∈ levelTags others) : entry = other := by
  by_contra differs
  have apart := (List.nodup_flatMap.mp unambiguous.groupTags_distinct).2
  have symmetric : Std.Symm (Function.onFun List.Disjoint
      fun schema : FieldSchema => levelTags (schema.groupSchema.getD [])) :=
    ⟨fun _ _ disjoint => disjoint.symm⟩
  have disjoint := apart.forall mem again differs
  simp only [Function.onFun, hasFields, hasOthers, Option.getD_some] at disjoint
  exact disjoint inFields inOthers

variable (unambiguous : Unambiguous table)
  (covered : ∀ index < message.length, ∃ entry ∈ table, ∃ start stop,
    Accounts message entry start stop ∧ start ≤ index ∧ index < stop)

include unambiguous covered

/-- A field with a tag of the table is where the span of its entry starts. -/
theorem top_start {index : ℕ} (found : message[index]? = some field)
    (top : field.tag ∈ levelTags table) :
    ∃ entry ∈ table, entry.tag = field.tag ∧ ∃ stop, Accounts message entry index stop := by
  rcases List.getElem?_eq_some_iff.mp found with ⟨inside, _⟩
  rcases covered index inside with ⟨entry, mem, start, stop, accounts, low, high⟩
  rcases accounts.tag_at low high found with ⟨rfl, same⟩ | ⟨_, fields, hasFields, inGroup⟩
  · exact ⟨entry, mem, same.symm, stop, accounts⟩
  · exact absurd top (unambiguous.disjoint _ (mem_groupTags mem hasFields inGroup))

/-- A tag of the table occurs at one position. -/
theorem top_unique {index position : ℕ} {again : Field} (found : message[index]? = some field)
    (foundAgain : message[position]? = some again) (same : again.tag = field.tag)
    (top : field.tag ∈ levelTags table) : index = position := by
  rcases top_start unambiguous covered found top with ⟨entry, mem, isTag, stop, accounts⟩
  rcases top_start unambiguous covered foundAgain (same ▸ top) with
    ⟨other, memAgain, isTagAgain, last, accountsAgain⟩
  have sameEntry := entry_unique unambiguous mem memAgain (by rw [isTag, isTagAgain, same])
  subst sameEntry
  exact (accounts.unique accountsAgain).1

/-- A field with a tag of a group lies inside the span of the count field. -/
theorem group_inside {index : ℕ} {fields : List FieldSchema} (found : message[index]? = some field)
    (mem : entry ∈ table) (hasFields : entry.groupSchema = some fields)
    (inGroup : field.tag ∈ levelTags fields) :
    ∃ start stop, Accounts message entry start stop ∧ start < index ∧ index < stop := by
  rcases List.getElem?_eq_some_iff.mp found with ⟨inside, _⟩
  rcases covered index inside with ⟨other, memOther, start, stop, accounts, low, high⟩
  rcases accounts.tag_at low high found with ⟨_, same⟩ | ⟨lower, others, hasOthers, inOthers⟩
  · exfalso
    apply unambiguous.disjoint _ (mem_groupTags mem hasFields inGroup)
    rw [same]
    exact List.mem_map_of_mem memOther
  · have sameEntry := group_unique unambiguous mem memOther hasFields hasOthers inGroup inOthers
    subst sameEntry
    exact ⟨start, stop, accounts, lower, high⟩

theorem countP_eq_one (mem : field ∈ message) (top : field.tag ∈ levelTags table) :
    message.countP (·.tag = field.tag) = 1 := by
  rcases List.append_of_mem mem with ⟨before, after, split⟩
  have here : message[before.length]? = some field := by simp [split]
  have noneBefore : before.countP (·.tag = field.tag) = 0 := by
    rw [List.countP_eq_zero]
    intro again inBefore same
    rcases List.getElem?_of_mem inBefore with ⟨position, found⟩
    have lt := (List.getElem?_eq_some_iff.mp found).1
    have there : message[position]? = some again := by
      rw [split, List.getElem?_append_left lt, found]
    have := top_unique unambiguous covered here there (by simpa using same) top
    omega
  have noneAfter : after.countP (·.tag = field.tag) = 0 := by
    rw [List.countP_eq_zero]
    intro again inAfter same
    rcases List.getElem?_of_mem inAfter with ⟨position, found⟩
    have there : message[before.length + (position + 1)]? = some again := by
      rw [split, List.getElem?_append_right (by omega), Nat.add_sub_cancel_left,
        List.getElem?_cons_succ, found]
    have := top_unique unambiguous covered here there (by simpa using same) top
    omega
  rw [split, List.countP_append, List.countP_cons, noneBefore, noneAfter]
  simp

/-- A plain field that is accounted for has the type of its entry wherever its tag occurs. -/
theorem typed_of_accounts (inTable : entry ∈ table) (plain : entry.type ≠ .group)
    (accounts : Accounts message entry start stop) :
    ∀ field ∈ message, field.tag = entry.tag → validateType field.value entry.type = true := by
  intro field mem isTag
  cases accounts with
  | absent missing => exact absurd isTag (missing field mem)
  | @plain before after first split _ same _ typed =>
      rcases List.getElem?_of_mem mem with ⟨index, found⟩
      have here : message[before.length]? = some first := by simp [split]
      have top : field.tag ∈ levelTags table := by
        rw [isTag]
        exact List.mem_map_of_mem inTable
      have position := top_unique unambiguous covered found here (same.trans isTag.symm) top
      rw [position, here] at found
      cases found
      exact typed
  | group _ _ _ isGroup => exact absurd isGroup plain

/-- A group that is accounted for is where its count says, and nowhere else. -/
theorem groupPlaced_of_accounts {fields : List FieldSchema} (inTable : entry ∈ table) (hasFields : entry.groupSchema = some fields)
    (accounts : Accounts message entry start stop) :
    GroupPlaced CountText Selection message entry.tag fields := by
  have isGroup : entry.type = .group := by
    have grouped := unambiguous.grouped entry inTable
    rcases entry with ⟨tag, type, presence, groupSchema⟩
    cases hasFields
    exact grouped.1
  have insideOnly : ∀ index field, message[index]? = some field → field.tag ∈ levelTags fields →
      start < index ∧ index < stop := by
    intro index field found inGroup
    rcases group_inside unambiguous covered found inTable hasFields inGroup with
      ⟨first, last, again, low, high⟩
    rcases accounts.unique again with ⟨rfl, rfl⟩
    exact ⟨low, high⟩
  cases accounts with
  | absent missing notRequired =>
      left
      intro field mem
      refine ⟨missing field mem, ?_⟩
      intro inGroup
      rcases List.getElem?_of_mem mem with ⟨index, found⟩
      have nowhere := insideOnly index field found inGroup
      omega
  | plain _ _ _ plain => exact absurd isGroup plain
  | @group level count before taken after field split first same isGroup counted hasLevel runs =>
      right
      rw [hasLevel] at hasFields
      cases hasFields
      rcases runs.selections with ⟨parts, takenEq, lengthEq, selections⟩
      refine ⟨before, field, parts, after, ?_, same, ?_, selections, ?_⟩
      · rw [← takenEq]
        exact split
      · rw [lengthEq]
        exact parseInt_eq_some_iff.mp counted
      · intro outside mem inGroup
        rcases List.mem_append.mp mem with inBefore | inAfter
        · rcases List.getElem?_of_mem inBefore with ⟨index, found⟩
          have inside := (List.getElem?_eq_some_iff.mp found).1
          rw [← List.getElem?_append_left inside, ← split] at found
          have within := insideOnly index outside found inGroup
          omega
        · rcases List.getElem?_of_mem inAfter with ⟨index, found⟩
          have later : message[before.length + (taken.length + index + 1)]? = some outside := by
            rw [split, List.getElem?_append_right (by omega), Nat.add_sub_cancel_left,
              List.getElem?_cons_succ, List.getElem?_append_right (by omega),
              Nat.add_sub_cancel_left, found]
          have within := insideOnly _ outside later inGroup
          omega

/-- What is accounted for conforms to the table. -/
theorem conforms_of_accounted
    (accounted : ∀ entry ∈ table, ∃ start stop, Accounts message entry start stop) :
    Conforms CountText Selection table message where
  known := by
    intro field mem
    rcases List.getElem?_of_mem mem with ⟨index, found⟩
    rcases covered index (List.getElem?_eq_some_iff.mp found).1 with
      ⟨entry, inTable, start, stop, accounts, low, high⟩
    rcases accounts.tag_at low high found with ⟨_, same⟩ | ⟨_, fields, hasFields, inGroup⟩
    · left
      rw [same]
      exact List.mem_map_of_mem inTable
    · exact .inr (mem_groupTags inTable hasFields inGroup)
  once := fun field mem top => countP_eq_one unambiguous covered mem top
  required := by
    intro entry inTable required
    rcases accounted entry inTable with ⟨start, stop, accounts⟩
    cases accounts with
    | absent _ notRequired => exact absurd required notRequired
    | @plain before after field split _ same => exact ⟨field, by simp [split], same⟩
    | @group fields count before taken after field split _ same =>
        exact ⟨field, by simp [split], same⟩
  typed := by
    intro entry inTable plain
    rcases accounted entry inTable with ⟨start, stop, accounts⟩
    exact typed_of_accounts unambiguous covered inTable plain accounts
  groups := by
    intro entry inTable fields hasFields
    rcases accounted entry inTable with ⟨start, stop, accounts⟩
    exact groupPlaced_of_accounts unambiguous covered inTable hasFields accounts

end Spans

section Complete

variable {table fields : List FieldSchema} {message before after : Message} {entry : FieldSchema}
  {field : Field}

theorem countTags_flat (flat : Flat fields) : FieldSchema.countTags fields = [] := by
  rw [FieldSchema.countTags, List.map_eq_nil_iff, List.filter_eq_nil_iff]
  intro field mem
  simpa using flat.plain field mem

theorem mem_levelTags_of_selects (plain : ∀ field ∈ fields, field.type ≠ .group) {run : Message}
    (selects : Selects fields run) (mem : field ∈ run) : field.tag ∈ levelTags fields := by
  induction fields generalizing run with
  | nil =>
      rw [Selects] at selects
      rw [selects] at mem
      cases mem
  | cons first rest ih =>
      rcases first with ⟨tag, type, presence, groupSchema⟩
      have plainRest : ∀ field ∈ rest, field.type ≠ .group := fun field mem =>
        plain field (List.mem_cons_of_mem _ mem)
      rw [Selects] at selects
      rcases selects with ⟨_, later⟩ | ⟨head, tail, rfl, isTag, _, _, later⟩ |
        ⟨_, _, _, _, _, _, isGroup, _⟩
      · exact List.mem_cons_of_mem _ (ih plainRest later mem)
      · rcases List.mem_cons.mp mem with rfl | inTail
        · rw [isTag]
          exact List.mem_cons_self ..
        · exact List.mem_cons_of_mem _ (ih plainRest later inTail)
      · exact absurd isGroup (plain _ (List.mem_cons_self ..))

/-- Runs that start with the first field of the group are taken by the walk, up to a field that
is not of the group. -/
theorem walkedRuns_of_leading (flat : Flat fields) {runs : List Message}
    (leading : ∀ run ∈ runs, LeadingSelection fields run)
    (ends : runs = [] ∨ ∃ next, after.head? = some next ∧ next.tag ∉ levelTags fields) :
    WalkedRuns fields runs.length runs.flatten after := by
  induction runs with
  | nil => exact .done after
  | cons run rest ih =>
      have here := leading run (List.mem_cons_self ..)
      rcases ends with none | ⟨next, follows, outside⟩
      · cases none
      have later := ih (fun other mem => leading other (List.mem_cons_of_mem _ mem))
        (.inr ⟨next, follows, outside⟩)
      have comes : ∃ next, (rest.flatten ++ after).head? = some next ∧
          (next.tag ∉ levelTags fields ∨ (levelTags fields).head? = some next.tag) := by
        cases rest with
        | nil => exact ⟨next, by simpa using follows, .inl outside⟩
        | cons second more =>
            rcases (leading second (by simp)).1 with ⟨first, starts, isFirst⟩
            refine ⟨first, ?_, .inr isFirst⟩
            simp [List.head?_append, starts]
      rcases comes with ⟨behind, comes, place⟩
      refine .more ?_ (Validator.length_pos_of_leads here.1) later
      apply walked_of_leads here.1 here.2 flat.distinct comes place
      simp [countTags_flat flat]

theorem others_of_countP (split : message = before ++ field :: after)
    (once : message.countP (·.tag = field.tag) = 1) :
    ∀ other ∈ before ++ after, other.tag ≠ field.tag := by
  rw [split, List.countP_append, List.countP_cons] at once
  simp only [decide_true, if_true] at once
  have none : (before ++ after).countP (·.tag = field.tag) = 0 := by
    rw [List.countP_append]
    omega
  intro other mem
  simpa using List.countP_eq_zero.mp none other mem

theorem index_unique (once : message.countP (·.tag = field.tag) = 1) {index position : ℕ}
    {other : Field} (found : message[index]? = some field) (again : message[position]? = some other)
    (same : other.tag = field.tag) : index = position := by
  rcases List.getElem?_eq_some_iff.mp found with ⟨inside, isField⟩
  have split : message = message.take index ++ field :: message.drop (index + 1) := by
    rw [← isField, List.getElem_cons_drop, List.take_append_drop]
  have others := others_of_countP split once
  rcases Nat.lt_trichotomy index position with lower | here | higher
  · exfalso
    apply others other _ same
    apply List.mem_append_right
    rw [List.mem_iff_getElem?]
    exact ⟨position - (index + 1), by rw [List.getElem?_drop, ← again]; congr 1; omega⟩
  · exact here
  · exfalso
    apply others other _ same
    apply List.mem_append_left
    rw [List.mem_iff_getElem?]
    exact ⟨position, by rw [List.getElem?_take_of_lt higher, again]⟩

variable (unambiguous : Unambiguous table) (conforms : Conforms CountText LeadingSelection table message)
  (ends : ∃ front last, message = front ++ [last] ∧ last.tag ∉ groupTags table)

include unambiguous conforms ends

/-- The count field of a group and its runs are accounted for. -/
theorem accounts_of_runs (mem : entry ∈ table) (hasFields : entry.groupSchema = some fields)
    {runs : List Message} (split : message = before ++ field :: (runs.flatten ++ after))
    (isTag : field.tag = entry.tag) (counted : CountText field.value runs.length)
    (leading : ∀ run ∈ runs, LeadingSelection fields run)
    (outside : ∀ other ∈ before ++ after, other.tag ∉ levelTags fields) :
    Accounts message entry before.length (before.length + 1 + runs.flatten.length) := by
  have grouped : entry.type = .group ∧ Flat fields := by
    have grouped := unambiguous.grouped entry mem
    rcases entry with ⟨tag, type, presence, groupSchema⟩
    cases hasFields
    exact grouped
  have top : field.tag ∈ levelTags table := by
    rw [isTag]
    exact List.mem_map_of_mem mem
  have once := conforms.once field (by simp [split]) top
  refine .group split ?_ isTag grouped.1 (parseInt_eq_some_iff.mpr counted) hasFields ?_
  · intro earlier inBefore
    rw [← isTag]
    exact others_of_countP split once earlier (List.mem_append_left _ inBefore)
  · apply walkedRuns_of_leading grouped.2 leading
    cases after with
    | cons next rest => exact .inr ⟨next, rfl, outside next (by simp)⟩
    | nil =>
        left
        by_contra some
        rcases List.exists_cons_of_ne_nil some with ⟨first, rest, rfl⟩
        have nonempty : ((first :: rest).flatten : Message) ≠ [] := by
          have := Validator.length_pos_of_leads (leading first (List.mem_cons_self ..)).1
          simp [this]
        rcases ends with ⟨front, last, splitLast, notGroup⟩
        apply notGroup
        apply mem_groupTags mem hasFields
        have inRuns : last ∈ (first :: rest).flatten := by
          have same : message.getLast? = ((first :: rest).flatten : Message).getLast? := by
            rw [split, List.append_nil, List.getLast?_append, List.getLast?_cons,
              List.getLast?_eq_some_getLast nonempty]
            rfl
          rw [splitLast, List.getLast?_concat, List.getLast?_eq_some_getLast nonempty] at same
          rw [Option.some.inj same]
          exact List.getLast_mem nonempty
        rcases List.mem_flatten.mp inRuns with ⟨run, inFlatten, inRun⟩
        exact mem_levelTags_of_selects grouped.2.plain (leading run inFlatten).2 inRun

/-- Every entry of the table accounts for its positions. -/
theorem accounted_of_conforms (mem : entry ∈ table) :
    ∃ start stop, Accounts message entry start stop := by
  by_cases occurs : ∃ field ∈ message, field.tag = entry.tag
  · rcases occurs with ⟨field, inMessage, isTag⟩
    have top : field.tag ∈ levelTags table := by
      rw [isTag]
      exact List.mem_map_of_mem mem
    cases hasFields : entry.groupSchema with
    | some fields =>
        rcases conforms.groups entry mem fields hasFields with none | ⟨before, count, runs, after,
          split, same, counted, leading, outside⟩
        · exact absurd isTag (none field inMessage).1
        · exact ⟨_, _, accounts_of_runs unambiguous conforms ends mem hasFields split same counted
            leading outside⟩
    | none =>
        have plain : entry.type ≠ .group := by
          have grouped := unambiguous.grouped entry mem
          rcases entry with ⟨tag, type, presence, groupSchema⟩
          cases hasFields
          exact grouped
        rcases List.append_of_mem inMessage with ⟨before, after, split⟩
        refine ⟨_, _, .plain split ?_ isTag plain (conforms.typed entry mem plain field inMessage
          isTag)⟩
        intro earlier inBefore
        rw [← isTag]
        exact others_of_countP split (conforms.once field inMessage top) earlier
          (List.mem_append_left _ inBefore)
  · refine ⟨0, 0, .absent ?_ ?_⟩
    · intro field inMessage isTag
      exact occurs ⟨field, inMessage, isTag⟩
    · intro required
      exact occurs (conforms.required entry mem required)

/-- Every position is accounted for. -/
theorem covered_of_conforms {index : ℕ} (inside : index < message.length) :
    ∃ entry ∈ table, ∃ start stop, Accounts message entry start stop ∧ start ≤ index ∧ index < stop := by
  have found : message[index]? = some message[index] := List.getElem?_eq_getElem inside
  have inMessage : message[index] ∈ message := List.getElem_mem inside
  rcases conforms.known _ inMessage with top | inGroups
  · rcases List.mem_map.mp top with ⟨entry, mem, isTag⟩
    rcases accounted_of_conforms unambiguous conforms ends mem with ⟨start, stop, accounts⟩
    have starts : start < stop ∧ ∃ field, message[start]? = some field ∧ field.tag = entry.tag := by
      cases accounts with
      | absent missing => exact absurd isTag.symm (missing _ inMessage)
      | @plain before after field split _ same => exact ⟨by omega, field, by simp [split], same⟩
      | @group fields count before taken after field split _ same =>
          exact ⟨by omega, field, by simp [split], same⟩
    rcases starts with ⟨lt, first, atStart, same⟩
    have position := index_unique (conforms.once _ inMessage top) found atStart (same.trans isTag)
    exact ⟨entry, mem, start, stop, accounts, by omega, by omega⟩
  · rw [groupTags, List.mem_flatMap] at inGroups
    rcases inGroups with ⟨entry, mem, inGroup⟩
    cases hasFields : entry.groupSchema with
    | none => simp [hasFields, levelTags] at inGroup
    | some fields =>
        simp only [hasFields, Option.getD_some] at inGroup
        rcases conforms.groups entry mem fields hasFields with none | ⟨before, count, runs, after,
          split, same, counted, leading, outside⟩
        · exact absurd inGroup (none _ inMessage).2
        · have span := accounts_of_runs unambiguous conforms ends mem hasFields split same counted
            leading outside
          refine ⟨entry, mem, _, _, span, ?_, ?_⟩
          · by_contra lower
            apply outside message[index] _ inGroup
            apply List.mem_append_left
            rw [List.mem_iff_getElem?]
            refine ⟨index, ?_⟩
            rw [← found, split, List.getElem?_append_left (by omega)]
          · by_contra beyond
            apply outside message[index] _ inGroup
            apply List.mem_append_right
            rw [List.mem_iff_getElem?]
            obtain ⟨offset, rfl⟩ : ∃ offset, index =
                before.length + (runs.flatten.length + offset + 1) :=
              ⟨index - before.length - 1 - runs.flatten.length, by omega⟩
            refine ⟨offset, ?_⟩
            rw [← found]
            conv_rhs => rw [split]
            rw [List.getElem?_append_right (by omega), Nat.add_sub_cancel_left,
              List.getElem?_cons_succ, List.getElem?_append_right (by omega),
              Nat.add_sub_cancel_left]

end Complete

/-- The occurrence the validator checks is the one the header cache keeps. -/
def Coincides (message : Message) : Prop :=
  ∀ slot ∈ HeaderCache.slots,
    slot.2 (makeValidMessageView message).headerCache = message.firstValue? slot.1

section Message

variable {message : Message} {params : SessionParameters} {schema : MessageSchema} {type : Bytes}
  {Counts : Bytes → ℕ → Prop} {Run : List FieldSchema → Message → Prop}

theorem exists_of_firstValue? {tag : ℕ} {value : Bytes} (found : message.firstValue? tag = some value) :
    ∃ field ∈ message, field.tag = tag ∧ field.value = value := by
  rw [Message.firstValue?, Option.map_eq_some_iff] at found
  rcases found with ⟨field, isFirst, valueEq⟩
  exact ⟨field, List.mem_of_find?_eq_some isFirst, by simpa using List.find?_some isFirst, valueEq⟩

theorem firstValue?_of_mem {tag : ℕ} {field : Field} (mem : field ∈ message) (isTag : field.tag = tag) :
    ∃ value, message.firstValue? tag = some value := by
  have isSome : (message.find? (·.tag = tag)).isSome = true := by
    rw [List.find?_isSome]
    exact ⟨field, mem, by simpa using isTag⟩
  rcases Option.isSome_iff_exists.mp isSome with ⟨first, found⟩
  exact ⟨first.value, by simp [Message.firstValue?, found]⟩

/-- No group of a registered type has a field that the header cache keeps, or the last field. -/
theorem slots_outside (registered : Registry.get type = some schema) :
    (∀ slot ∈ HeaderCache.slots, slot.1 ∉ groupTags schema.table) ∧ 10 ∉ groupTags schema.table := by
  have all : ∀ schema ∈ Registry.messageSchemas,
      (∀ slot ∈ HeaderCache.slots, slot.1 ∉ groupTags schema.table) ∧
        10 ∉ groupTags schema.table := by
    decide +kernel
  exact all schema ((List.perm_insertionSort _ _).subset (Registry.msgType_of_get registered).2)

theorem coincides_of_conforms (registered : Registry.get type = some schema)
    (conforms : Conforms Counts Run schema.table message) : Coincides message := by
  intro slot isSlot
  rw [slot_makeValidMessageView isSlot, firstValue?_reverse]
  by_cases occurs : ∃ field ∈ message, field.tag = slot.1
  · rcases occurs with ⟨field, mem, isTag⟩
    rw [← isTag]
    rcases conforms.known field mem with top | inGroup
    · exact Nat.le_of_eq (conforms.once field mem top)
    · rw [isTag] at inGroup
      exact absurd inGroup ((slots_outside registered).1 slot isSlot)
  · have none : message.countP (·.tag = slot.1) = 0 := by
      rw [List.countP_eq_zero]
      intro field mem isTag
      exact occurs ⟨field, mem, by simpa using isTag⟩
    omega

namespace Validator

/-- An accepted message conforms to its schemas. -/
theorem conforming_of_accepted
    (accepted : Accepted params (makeValidMessageView message) type schema) :
    Conforming CountText Selection params message ∧ Coincides message := by
  have conforms := conforms_of_accounted (unambiguous_of_get accepted.registered) accepted.covered
    accepted.accounted
  have coincides := coincides_of_conforms accepted.registered conforms
  have slot : ∀ slot ∈ HeaderCache.slots,
      slot.2 (makeValidMessageView message).headerCache = message.firstValue? slot.1 := coincides
  refine ⟨⟨type, schema, ?_, accepted.registered, ?_, ?_, conforms⟩, coincides⟩
  · exact (slot (35, HeaderCache.msgType) (by simp [HeaderCache.slots])).symm.trans accepted.type_eq
  · exact (slot (49, HeaderCache.senderCompId) (by simp [HeaderCache.slots])).symm.trans
      accepted.fits.sender
  · exact (slot (56, HeaderCache.targetCompId) (by simp [HeaderCache.slots])).symm.trans
      accepted.fits.target

theorem accepted_of_conforming (ends : ∃ front last, message = front ++ [last] ∧ last.tag = 10)
    (starts : StartsStandard message)
    (conforming : Conforming CountText LeadingSelection params message) :
    ∃ type schema, Accepted params (makeValidMessageView message) type schema := by
  rcases conforming with ⟨type, schema, typeEq, registered, sender, target, conforms⟩
  have unambiguous := unambiguous_of_get registered
  have slot : ∀ slot ∈ HeaderCache.slots,
      slot.2 (makeValidMessageView message).headerCache = message.firstValue? slot.1 :=
    coincides_of_conforms registered conforms
  have endsOutside : ∃ front last, message = front ++ [last] ∧ last.tag ∉ groupTags schema.table := by
    rcases ends with ⟨front, last, split, isTen⟩
    refine ⟨front, last, split, ?_⟩
    rw [isTen]
    exact (slots_outside registered).2
  have inHeader : ∀ entry ∈ Schema.standardHeader, entry ∈ schema.table := fun entry mem =>
    List.mem_append_left _ mem
  refine ⟨type, schema, ?_, registered, ?_, ?_, ?_⟩
  · exact (slot (35, HeaderCache.msgType) (by simp [HeaderCache.slots])).trans typeEq
  · rcases starts with ⟨first, second, third, rest, split, isBegin, version, isLength, isType⟩
    have lengthTyped := conforms.typed (.plain 9 .int .required)
      (inHeader _ (by simp [Schema.standardHeader])) (by simp [FieldSchema.plain, FieldSchema.type])
      second (by simp [split]) isLength
    refine ⟨⟨first, by simp [makeValidMessageView, split], version⟩,
      ⟨second, by simp [makeValidMessageView, split], lengthTyped⟩,
      ⟨third, by simp [makeValidMessageView, split], ?_⟩, ?_, ?_, ?_⟩
    · rw [split] at typeEq
      simpa [Message.firstValue?, isBegin, isLength, isType] using typeEq
    · rcases conforms.required (.plain 34 .int .required)
        (inHeader _ (by simp [Schema.standardHeader])) rfl with ⟨field, mem, isTag⟩
      rcases firstValue?_of_mem mem isTag with ⟨value, found⟩
      rcases exists_of_firstValue? found with ⟨number, inMessage, isNumber, valueEq⟩
      refine ⟨value, ?_, ?_⟩
      · exact (slot (34, HeaderCache.msgSeqNumText) (by simp [HeaderCache.slots])).trans found
      · rw [← valueEq]
        exact conforms.typed (.plain 34 .int .required)
          (inHeader _ (by simp [Schema.standardHeader]))
          (by simp [FieldSchema.plain, FieldSchema.type]) number inMessage isNumber
    · exact (slot (49, HeaderCache.senderCompId) (by simp [HeaderCache.slots])).trans sender
    · exact (slot (56, HeaderCache.targetCompId) (by simp [HeaderCache.slots])).trans target
  · exact fun entry mem => accounted_of_conforms unambiguous conforms endsOutside mem
  · exact fun index inside => covered_of_conforms unambiguous conforms endsOutside inside

/-- Only conforming messages are accepted, and all of those that start with the standard fields and
whose runs start with the first field of their group. -/
theorem validateMessage_sound_complete (validator : Validator) (params : SessionParameters)
    (message : Message) (ends : ∃ front last, message = front ++ [last] ∧ last.tag = 10) :
    ((validator.validateMessage (makeValidMessageView message) params).results.errors = [] →
        Conforming CountText Selection params message ∧ Coincides message) ∧
      (StartsStandard message → Conforming CountText LeadingSelection params message →
        (validator.validateMessage (makeValidMessageView message) params).results.errors = []) := by
  rw [accepted_iff]
  constructor
  · rintro ⟨type, schema, accepted⟩
    exact conforming_of_accepted accepted
  · intro starts conforming
    exact accepted_of_conforming ends starts conforming

/-- A Heartbeat of the peer, with a group in its header. -/
def hopHeartbeat (count : Bytes) (hops : Message) : Message :=
  [⟨8, ascii "FIX.4.4"⟩, ⟨9, ascii "5"⟩, ⟨35, ascii "0"⟩, ⟨49, ascii "B"⟩, ⟨56, ascii "A"⟩,
    ⟨34, ascii "7"⟩, ⟨52, ascii "Now"⟩, ⟨627, count⟩] ++ hops ++ [⟨10, ascii "000"⟩]

/-- The parameters of the session that gets the message. -/
def hopParams : SessionParameters := { senderCompId := ascii "A", targetCompId := ascii "B" }

theorem ends_hopHeartbeat (count : Bytes) (hops : Message) :
    ∃ front last, hopHeartbeat count hops = front ++ [last] ∧ last.tag = 10 :=
  ⟨_, _, rfl, rfl⟩

theorem validateMessage_sound_complete_hop :
    Conforming CountText Selection hopParams (hopHeartbeat (ascii "1") [⟨628, ascii "X"⟩]) ∧
      Coincides (hopHeartbeat (ascii "1") [⟨628, ascii "X"⟩]) :=
  (validateMessage_sound_complete {} hopParams _ (ends_hopHeartbeat _ _)).1 (by decide +kernel)

/-- A count of minus zero is accepted. -/
theorem validateMessage_minusCount :
    (∃ front last, hopHeartbeat (ascii "-0") [] = front ++ [last] ∧ last.tag = 10) ∧
      (({} : Validator).validateMessage (makeValidMessageView (hopHeartbeat (ascii "-0") []))
        hopParams).results.errors = [] ∧
      ¬Conforming PlainCount Selection hopParams (hopHeartbeat (ascii "-0") []) := by
  refine ⟨ends_hopHeartbeat _ _, by decide +kernel, ?_⟩
  rintro ⟨type, schema, _, _, _, _, conforms⟩
  have inTable : FieldSchema.mk 627 .group .optional (some Schema.group627) ∈ schema.table :=
    List.mem_append_left _ (by simp [Schema.standardHeader])
  rcases conforms.groups _ inTable _ rfl with none | ⟨before, count, runs, after, split, same,
    ⟨_, digits, _⟩, _⟩
  · have occurs := none ⟨627, ascii "-0"⟩ (by simp [hopHeartbeat])
    exact occurs.1 rfl
  · have onlyCount : ∀ field ∈ hopHeartbeat (ascii "-0") [], field.tag = 627 →
        field = ⟨627, ascii "-0"⟩ := by decide
    have isMinus := onlyCount count (by simp [split]) same
    rw [isMinus] at digits
    exact absurd (digits 45 (by decide)) (by decide)

end Validator

end Message

end FixEngine
