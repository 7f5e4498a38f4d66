import FixEngine.Validation.Scratch

/-!
# The verdict on a message depends on nothing but the message

A validator is used for one message after the other, and its scratch bits only grow. `Agree`
relates two validators that may differ in the bits no check of the message at hand looks at; all
checks preserve it, so the results of `validateMessage` are a function of the message and the
session parameters.
-/

namespace FixEngine

namespace TagScratch

/-- Equal in the first `words` words. -/
def Agree (words : ℕ) (left right : TagScratch) : Prop :=
  left.data.take words = right.data.take words

variable {words : ℕ} {left right : TagScratch}

theorem Agree.set (agree : Agree words left right) (index : ℕ) :
    Agree words (left.set index) (right.set index) := by
  simp only [Agree, TagScratch.set, List.take_modify] at *
  rw [agree]

theorem Agree.word_eq (agree : Agree words left right) {index : ℕ} (lt : index < words) :
    left.word index = right.word index := by
  have eq := congrArg (fun data : List (BitVec 64) => data[index]?) agree
  simp only [List.getElem?_take_of_lt lt] at eq
  rw [word, word, eq]

theorem Agree.full_eq {size : ℕ} (agree : Agree (size / 64 + 1) left right) :
    left.full size = right.full size := by
  have words : ∀ i ∈ List.range (size / 64), left.word i = right.word i := fun i mem =>
    agree.word_eq (by have := List.mem_range.mp mem; omega)
  have all : (List.range (size / 64)).all (fun i => left.word i == BitVec.allOnes 64) =
      (List.range (size / 64)).all (fun i => right.word i == BitVec.allOnes 64) := by
    rw [Bool.eq_iff_iff, List.all_eq_true, List.all_eq_true]
    constructor
    · intro ones i mem
      rw [← words i mem]
      exact ones i mem
    · intro ones i mem
      rw [words i mem]
      exact ones i mem
  rw [full, full, all, agree.word_eq (Nat.lt_succ_self _)]

/-- After it was cleared for a message, a scratch holds zeros wherever it is looked at. -/
theorem agree_cleared (left right : TagScratch) (size : ℕ) :
    Agree (size / 64 + 1) (left.ensureBits size).clear (right.ensureBits size).clear := by
  have zeros : ∀ scratch : TagScratch, ((scratch.ensureBits size).clear).data.take (size / 64 + 1) =
      List.replicate (size / 64 + 1) 0 := by
    intro scratch
    have enough := (scratch.length_ensureBits size).2
    simp only [clear, List.map_const', List.take_replicate]
    rw [Nat.min_eq_left enough]
  rw [Agree, zeros, zeros]

end TagScratch

namespace Validator

/-- The same findings, and marks that agree in the first `words` words. -/
structure Agree (words : ℕ) (left right : Validator) : Prop where
  results_eq : left.results = right.results
  marks : left.tagscratch.Agree words right.tagscratch

/-- The same for a walk over the fields: it has come to the same position too. -/
structure AgreeAt (words : ℕ) (left right : Validator × ℕ) : Prop where
  agree : Agree words left.1 right.1
  index_eq : left.2 = right.2

section Steps

variable {words : ℕ} {left right : Validator} (agree : Agree words left right)

include agree

theorem Agree.pushError (info : Bytes) (tag : ℕ) (code : ValidatorError) :
    Agree words (left.pushError info tag code) (right.pushError info tag code) :=
  ⟨by simp only [Validator.pushError, agree.results_eq], agree.marks⟩

theorem Agree.pushFatal (info : Bytes) (tag : ℕ) (code : ValidatorError) :
    Agree words (left.pushFatal info tag code) (right.pushFatal info tag code) :=
  ⟨by simp only [Validator.pushFatal, Validator.pushError, agree.results_eq], agree.marks⟩

theorem Agree.mark (index : ℕ) : Agree words (left.mark index) (right.mark index) :=
  ⟨agree.results_eq, agree.marks.set index⟩

end Steps

theorem AgreeAt.mk_at {words : ℕ} {left right : Validator} (agree : Agree words left right)
    (index : ℕ) : AgreeAt words (left, index) (right, index) := ⟨agree, rfl⟩

theorem AgreeAt.next {words : ℕ} {left right : Validator × ℕ} (agree : AgreeAt words left right) :
    AgreeAt words (left.1, left.2 + 1) (right.1, right.2 + 1) :=
  ⟨agree.agree, congrArg (· + 1) agree.index_eq⟩

section Groups

variable {words : ℕ} {message : Message}

theorem agreeAt_repeatEntries {entry : Validator × ℕ → (Validator × ℕ) × Option (List ℕ)}
    (entryAgrees : ∀ left right, AgreeAt words left right →
      AgreeAt words (entry left).1 (entry right).1 ∧ (entry left).2 = (entry right).2)
    (groupTag count : ℕ) {left right : Validator × ℕ} (agree : AgreeAt words left right) :
    AgreeAt words (repeatEntries entry groupTag count left)
      (repeatEntries entry groupTag count right) := by
  induction count generalizing left right with
  | zero => exact agree
  | succ count ih =>
      obtain ⟨next, occurredEq⟩ := entryAgrees left right agree
      rcases leftEq : entry left with ⟨leftNext, leftOccurred⟩
      rcases rightEq : entry right with ⟨rightNext, rightOccurred⟩
      rw [leftEq, rightEq] at next occurredEq
      simp only at next occurredEq
      subst occurredEq
      cases leftOccurred with
      | none => simpa only [repeatEntries, leftEq, rightEq] using next
      | some occurred =>
          simp only [repeatEntries, leftEq, rightEq]
          split
          · exact ⟨next.agree.pushError _ _ _, next.index_eq⟩
          · exact ih next

/-- A group is walked alike when its entries are. -/
theorem agreeAt_groups {schema : Option (List FieldSchema)}
    (entries : ∀ fields, schema = some fields → ∀ left right : Validator × ℕ,
      AgreeAt words left right →
        AgreeAt words (validateEntry message left [] fields).1
            (validateEntry message right [] fields).1 ∧
          (validateEntry message left [] fields).2 = (validateEntry message right [] fields).2)
    (groupTag groupcnt : ℕ) {left right : Validator × ℕ} (agree : AgreeAt words left right) :
    AgreeAt words (validateGroups message groupTag groupcnt left schema)
      (validateGroups message groupTag groupcnt right schema) := by
  cases schema with
  | none =>
      simp only [validateGroups]
      split
      · exact agree
      · exact ⟨agree.agree.pushError _ _ _, agree.index_eq⟩
  | some fields =>
      simp only [validateGroups]
      split
      · exact agree
      split
      · exact ⟨agree.agree.pushError _ _ _, agree.index_eq⟩
      split
      · exact ⟨agree.agree.pushError _ _ _, agree.index_eq⟩
      · exact agreeAt_repeatEntries (entries fields rfl) groupTag groupcnt agree

theorem agreeAt_validateEntry (schema : List FieldSchema) (occurred : List ℕ)
    {left right : Validator × ℕ} (agree : AgreeAt words left right) :
    AgreeAt words (validateEntry message left occurred schema).1
        (validateEntry message right occurred schema).1 ∧
      (validateEntry message left occurred schema).2 =
        (validateEntry message right occurred schema).2 := by
  induction schema using FieldSchema.lists_induction generalizing occurred left right with
  | nil => simpa only [validateEntry, and_true] using agree
  | cons tag type presence groupSchema rest nestedIh restIh =>
      have index_eq := agree.index_eq
      simp only [validateEntry, index_eq]
      split
      · exact ⟨⟨agree.agree.pushError _ _ _, rfl⟩, rfl⟩
      next field _ =>
      split
      · split
        · exact ⟨⟨agree.agree.pushError _ _ _, rfl⟩, rfl⟩
        · exact restIh occurred agree
      split
      · exact ⟨agree, rfl⟩
      split
      · split
        · exact ⟨⟨(agree.agree.mark _).pushError _ _ _, rfl⟩, rfl⟩
        · next groupCount _ =>
            have nested := agreeAt_groups
              (fun fields same left right agree => nestedIh fields same [] agree) tag groupCount
              (AgreeAt.mk_at (agree.agree.mark right.2) (right.2 + 1))
            revert nested
            generalize validateGroups message tag groupCount (left.1.mark right.2, right.2 + 1)
              groupSchema = leftWalked
            generalize validateGroups message tag groupCount (right.1.mark right.2, right.2 + 1)
              groupSchema = rightWalked
            intro nested
            exact restIh _ nested.next
      split
      · exact restIh _ (.mk_at (agree.agree.mark right.2) (right.2 + 1))
      · exact ⟨⟨(agree.agree.mark _).pushError _ _ _, rfl⟩, rfl⟩

theorem agreeAt_validateGroups (groupTag groupcnt : ℕ) {left right : Validator × ℕ}
    (agree : AgreeAt words left right) (schema : Option (List FieldSchema)) :
    AgreeAt words (validateGroups message groupTag groupcnt left schema)
      (validateGroups message groupTag groupcnt right schema) :=
  agreeAt_groups (fun fields _ _ _ agree => agreeAt_validateEntry fields [] agree) groupTag
    groupcnt agree

end Groups

section Message

variable {words : ℕ} {left right : Validator}

theorem agree_validateFields (message : Message) (agree : Agree words left right)
    (schema : List FieldSchema) :
    Agree words (validateFields message left schema) (validateFields message right schema) := by
  induction schema generalizing left right with
  | nil => exact agree
  | cons first rest ih =>
      simp only [validateFields]
      split
      · next index _ =>
          split
          · split
            · exact (agree.mark index).pushError _ _ _
            · next groupCount _ =>
                exact ih (agreeAt_validateGroups first.tag groupCount
                  (.mk_at (agree.mark index) (index + 1)) first.groupSchema).agree
          split
          · exact ih (agree.mark index)
          · exact (agree.mark index).pushError _ _ _
      · split
        · exact agree.pushError _ _ _
        · exact ih agree

theorem agree_validateHeader (agree : Agree words left right) (view : ValidMessageView)
    (expectedType : Bytes) (params : SessionParameters) :
    Agree words (left.validateHeader view expectedType params)
      (right.validateHeader view expectedType params) := by
  simp only [validateHeader]
  split
  · split
    · exact agree.pushFatal _ _ _
    split
    · exact agree.pushError _ _ _
    split
    · exact agree.pushError _ _ _
    split
    · exact agree.pushFatal _ _ _
    split
    · exact agree.pushFatal _ _ _
    split
    · exact agree.pushFatal _ _ _
    · exact agree_validateFields _ agree _
  · exact agree.pushFatal _ _ _

/-- The search for unmarked fields at the end. -/
theorem agree_leftover {size : ℕ} (agree : Agree (size / 64 + 1) left right) :
    Agree (size / 64 + 1)
      (if left.results.errors = [] && !left.tagscratch.full size then
        left.pushError [] 0 .invalidTagNumber else left)
      (if right.results.errors = [] && !right.tagscratch.full size then
        right.pushError [] 0 .invalidTagNumber else right) := by
  rw [agree.results_eq, agree.marks.full_eq]
  split
  · exact agree.pushError _ _ _
  · exact agree

/-- What was validated before does not show in the results. -/
theorem results_validateMessage (validator : Validator) (view : ValidMessageView)
    (params : SessionParameters) :
    (validator.validateMessage view params).results =
      (({} : Validator).validateMessage view params).results := by
  have cleared : Agree (view.message.length / 64 + 1)
      ⟨{}, (validator.tagscratch.ensureBits view.message.length).clear⟩
      ⟨{}, (({} : TagScratch).ensureBits view.message.length).clear⟩ :=
    ⟨rfl, TagScratch.agree_cleared _ _ _⟩
  simp only [validateMessage]
  split
  · exact (cleared.pushError _ _ _).results_eq
  split
  · exact (cleared.pushError _ _ _).results_eq
  next _ expectedType _ _ schema _ =>
  have header := agree_validateHeader cleared view expectedType params
  exact (agree_leftover (agree_validateFields view.message
    (agree_validateFields view.message header schema.body) Schema.trailer)).results_eq

end Message

section Findings

mutual

/-- The tags of a schema, those of its groups included, are small numbers. -/
def smallTags : List FieldSchema → Bool
  | [] => true
  | .mk tag _ _ groupSchema :: rest =>
      decide (tag < 10 ^ 7) && smallGroup groupSchema && smallTags rest

/-- All tags of a group are small. -/
def smallGroup : Option (List FieldSchema) → Bool
  | none => true
  | some fields => smallTags fields

end

theorem smallTags_cons {first : FieldSchema} {rest : List FieldSchema} :
    smallTags (first :: rest) = true ↔
      first.tag < 10 ^ 7 ∧ smallGroup first.groupSchema = true ∧ smallTags rest = true := by
  rcases first with ⟨tag, type, presence, groupSchema⟩
  simp [smallTags, FieldSchema.tag, FieldSchema.groupSchema, and_assoc]

/-- What the validator reports can be sent in a Reject. -/
def PlainFindings (validator : Validator) : Prop :=
  ∀ error ∈ validator.results.errors,
    soh ∉ error.info ∧ error.info.length < 64 ∧ error.tag < 10 ^ 7

variable {validator : Validator} {message : Message}

theorem plainFindings_pushError (plain : validator.PlainFindings) {info : Bytes} {tag : ℕ}
    (code : ValidatorError) (noDelimiter : soh ∉ info) (short : info.length < 64)
    (small : tag < 10 ^ 7) : (validator.pushError info tag code).PlainFindings := by
  intro error mem
  rcases List.mem_append.mp mem with earlier | new
  · exact plain error earlier
  · rw [List.mem_singleton.mp new]
    exact ⟨noDelimiter, short, small⟩

theorem plainFindings_repeatEntries
    {entry : Validator × ℕ → (Validator × ℕ) × Option (List ℕ)}
    (entryPlain : ∀ state : Validator × ℕ, state.1.PlainFindings →
      (entry state).1.1.PlainFindings)
    {groupTag : ℕ} (small : groupTag < 10 ^ 7) (count : ℕ) {state : Validator × ℕ}
    (plain : state.1.PlainFindings) :
    (repeatEntries entry groupTag count state).1.PlainFindings := by
  induction count generalizing state with
  | zero => exact plain
  | succ count ih =>
      have next := entryPlain state plain
      rw [repeatEntries]
      rcases entryEq : entry state with ⟨walked, occurred⟩
      rw [entryEq] at next
      cases occurred with
      | none => exact next
      | some occurred =>
          simp only
          split
          · exact plainFindings_pushError next _ (by simp) (by simp) small
          · exact ih next

/-- The findings in a group are plain when those in its entries are. -/
theorem plainFindings_groups {schema : Option (List FieldSchema)}
    (entries : ∀ fields, schema = some fields → ∀ state : Validator × ℕ, state.1.PlainFindings →
      (validateEntry message state [] fields).1.1.PlainFindings)
    {groupTag : ℕ} (small : groupTag < 10 ^ 7) (groupcnt : ℕ) {state : Validator × ℕ}
    (plain : state.1.PlainFindings) :
    (validateGroups message groupTag groupcnt state schema).1.PlainFindings := by
  cases schema with
  | none =>
      simp only [validateGroups]
      split
      · exact plain
      · exact plainFindings_pushError plain _ (by decide) (by decide) small
  | some fields =>
      simp only [validateGroups]
      split
      · exact plain
      split
      · exact plainFindings_pushError plain _ (by decide) (by decide) small
      split
      · exact plainFindings_pushError plain _ (by decide) (by decide) small
      · exact plainFindings_repeatEntries (entries fields rfl) small groupcnt plain

theorem plainFindings_validateEntry (schema : List FieldSchema) (occurred : List ℕ)
    {state : Validator × ℕ} (plain : state.1.PlainFindings) (small : smallTags schema = true) :
    (validateEntry message state occurred schema).1.1.PlainFindings := by
  induction schema using FieldSchema.lists_induction generalizing occurred state with
  | nil => simpa only [validateEntry] using plain
  | cons tag type presence groupSchema rest nestedIh restIh =>
      simp only [smallTags, Bool.and_eq_true, decide_eq_true_eq] at small
      rcases small with ⟨⟨smallTag, smallNested⟩, smallRest⟩
      simp only [validateEntry]
      split
      · exact plainFindings_pushError plain _ (by simp) (by simp) smallTag
      split
      · split
        · exact plainFindings_pushError plain _ (by simp) (by simp) smallTag
        · exact restIh occurred plain smallRest
      split
      · exact plain
      split
      · split
        · exact plainFindings_pushError plain _ (by simp) (by simp) smallTag
        · next groupCount _ =>
            have nested := @plainFindings_groups message groupSchema
              (fun fields same state plain => nestedIh fields same [] plain (by
                rw [same] at smallNested
                simpa only [smallGroup] using smallNested)) _ smallTag groupCount
              (state.1.mark state.2, state.2 + 1) plain
            exact @restIh _ (_, _ + 1) nested smallRest
      split
      · exact @restIh _ (state.1.mark state.2, state.2 + 1) plain smallRest
      · exact plainFindings_pushError plain _ (by simp) (by simp) smallTag

theorem plainFindings_validateGroups {groupTag : ℕ} (small : groupTag < 10 ^ 7) (groupcnt : ℕ)
    {state : Validator × ℕ} (plain : state.1.PlainFindings) (schema : Option (List FieldSchema))
    (smallFields : smallGroup schema = true) :
    (validateGroups message groupTag groupcnt state schema).1.PlainFindings := by
  refine plainFindings_groups (fun fields same state plain => ?_) small groupcnt plain
  rw [same] at smallFields
  exact plainFindings_validateEntry fields [] plain (by simpa only [smallGroup] using smallFields)

theorem plainFindings_validateFields (plain : validator.PlainFindings) {schema : List FieldSchema}
    (small : smallTags schema = true) : (validateFields message validator schema).PlainFindings := by
  induction schema generalizing validator with
  | nil => exact plain
  | cons first rest ih =>
      rcases smallTags_cons.mp small with ⟨smallTag, smallNested, smallRest⟩
      simp only [validateFields]
      split
      · next index _ =>
          by_cases isGroup : first.type = .group
          · rw [if_pos isGroup]
            split
            · exact plainFindings_pushError plain _ (by simp) (by simp) smallTag
            · next groupCount _ =>
                exact ih (@plainFindings_validateGroups _ _ smallTag groupCount
                  (validator.mark index, index + 1) plain _ smallNested) smallRest
          rw [if_neg isGroup]
          split_ifs
          · exact ih (show (validator.mark index).PlainFindings from plain) smallRest
          · exact plainFindings_pushError plain _ (by simp) (by simp) smallTag
      · split_ifs
        · exact plainFindings_pushError plain _ (by simp) (by simp) smallTag
        · exact ih plain smallRest

theorem smallTags_of_get {type : Bytes} {schema : MessageSchema}
    (found : Registry.get type = some schema) : smallTags schema.body = true := by
  have all : ∀ schema ∈ Registry.messageSchemas, smallTags schema.body = true := by
    decide +kernel
  exact all schema ((List.perm_insertionSort _ _).subset (Registry.msgType_of_get found).2)

/-- Every finding about a message can be sent in a Reject. -/
theorem plainFindings_validateMessage (validator : Validator) (view : ValidMessageView)
    (params : SessionParameters) : (validator.validateMessage view params).PlainFindings := by
  have cleared : PlainFindings
      ⟨{}, (validator.tagscratch.ensureBits view.message.length).clear⟩ := by
    intro error mem
    simp at mem
  simp only [validateMessage]
  split
  · exact plainFindings_pushError cleared _ (by simp) (by simp) (by norm_num)
  split
  · exact plainFindings_pushError cleared _ (by simp) (by simp) (by norm_num)
  next _ expectedType _ _ schema found =>
  have header : (validateHeader ⟨{}, (validator.tagscratch.ensureBits view.message.length).clear⟩
      view expectedType params).PlainFindings := by
    simp only [validateHeader]
    split
    · split_ifs
      · exact plainFindings_pushError cleared _ (by decide) (by decide) (by norm_num)
      · exact plainFindings_pushError cleared _ (by simp) (by simp) (by norm_num)
      · exact plainFindings_pushError cleared _ (by simp) (by simp) (by norm_num)
      · exact plainFindings_pushError cleared _ (by simp) (by simp) (by norm_num)
      · exact plainFindings_pushError cleared _ (by decide) (by decide) (by norm_num)
      · exact plainFindings_pushError cleared _ (by decide) (by decide) (by norm_num)
      · exact plainFindings_validateFields cleared (by decide +kernel)
    · exact plainFindings_pushError cleared _ (by simp) (by simp) (by norm_num)
  have body := @plainFindings_validateFields _ view.message header _ (smallTags_of_get found)
  have checked := @plainFindings_validateFields _ view.message body Schema.trailer (by decide +kernel)
  split
  · exact plainFindings_pushError checked _ (by simp) (by simp) (by norm_num)
  · exact checked

end Findings

end Validator

end FixEngine
