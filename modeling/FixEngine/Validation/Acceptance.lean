import FixEngine.Validation.Groups
import FixEngine.Validation.Required

/-!
# What an accepted message consists of

Three passes over schema tables, a walk for each group and the scratch bits decide about a message.
`Accounts` says which positions of the message one entry of a table stands for, and a message is
accepted when every entry accounts for its positions and no position is left over, besides a few
checks of the header. The tables of all registered types are such that no tag has two meanings.
-/

namespace FixEngine

namespace FieldSchema

/-- A group without nested groups, of a size the walk supports. -/
structure Flat (fields : List FieldSchema) : Prop where
  ne_nil : fields.isEmpty = false
  length_le : fields.length ≤ Validator.maxGroupCount
  plain : ∀ field ∈ fields, field.type ≠ .group
  distinct : (levelTags fields).Nodup

instance (fields : List FieldSchema) : Decidable (Flat fields) :=
  decidable_of_iff (fields.isEmpty = false ∧ fields.length ≤ Validator.maxGroupCount ∧
      (∀ field ∈ fields, field.type ≠ .group) ∧ (levelTags fields).Nodup)
    ⟨fun ⟨ne_nil, length_le, plain, distinct⟩ => ⟨ne_nil, length_le, plain, distinct⟩,
      fun flat => ⟨flat.ne_nil, flat.length_le, flat.plain, flat.distinct⟩⟩

/-- A count field has a flat group, and no other field has a group. -/
def Grouped : FieldSchema → Prop
  | mk _ type _ none => type ≠ .group
  | mk _ type _ (some fields) => type = .group ∧ Flat fields

instance : (schema : FieldSchema) → Decidable (Grouped schema)
  | mk _ _ _ none => inferInstanceAs (Decidable (_ ≠ _))
  | mk _ _ _ (some _) => inferInstanceAs (Decidable (_ ∧ _))

/-- The tags of the groups in a table. -/
def groupTags (table : List FieldSchema) : List ℕ :=
  table.flatMap fun schema => levelTags (schema.groupSchema.getD [])

/-- No tag has two meanings in the table. -/
structure Unambiguous (table : List FieldSchema) : Prop where
  grouped : ∀ schema ∈ table, Grouped schema
  distinct : (levelTags table).Nodup
  groupTags_distinct : (groupTags table).Nodup
  disjoint : ∀ tag ∈ groupTags table, tag ∉ levelTags table

instance (table : List FieldSchema) : Decidable (Unambiguous table) :=
  decidable_of_iff ((∀ schema ∈ table, Grouped schema) ∧ (levelTags table).Nodup ∧
      (groupTags table).Nodup ∧ ∀ tag ∈ groupTags table, tag ∉ levelTags table)
    ⟨fun ⟨grouped, distinct, groupTags_distinct, disjoint⟩ =>
        ⟨grouped, distinct, groupTags_distinct, disjoint⟩,
      fun ok => ⟨ok.grouped, ok.distinct, ok.groupTags_distinct, ok.disjoint⟩⟩

end FieldSchema

open FieldSchema (levelTags groupTags Flat Grouped Unambiguous)

/-- The schemas a message of a type is checked against. -/
def MessageSchema.table (schema : MessageSchema) : List FieldSchema :=
  Schema.standardHeader ++ (schema.body ++ Schema.trailer)

theorem unambiguous_of_get {type : Bytes} {schema : MessageSchema}
    (found : Registry.get type = some schema) : Unambiguous schema.table := by
  have all : ∀ schema ∈ Registry.messageSchemas, Unambiguous schema.table := by decide +kernel
  exact all schema ((List.perm_insertionSort _ _).subset (Registry.msgType_of_get found).2)

/-- The entries of a group, each taken by the walk in front of the next. -/
inductive WalkedRuns (fields : List FieldSchema) : ℕ → Message → Message → Prop
  | done (after : Message) : WalkedRuns fields 0 [] after
  | more {count : ℕ} {run rest after : Message} (walked : Walked fields run (rest ++ after))
      (ne_nil : run ≠ []) (later : WalkedRuns fields count rest after) :
      WalkedRuns fields (count + 1) (run ++ rest) after

/-- The positions of a message, from `start` to before `stop`, that an entry of a table accounts
for. -/
inductive Accounts (message : Message) : FieldSchema → ℕ → ℕ → Prop
  | absent {schema : FieldSchema} (missing : ∀ field ∈ message, field.tag ≠ schema.tag)
      (notRequired : schema.presence ≠ .required) : Accounts message schema 0 0
  | plain {schema : FieldSchema} {before after : Message} {field : Field}
      (split : message = before ++ field :: after)
      (first : ∀ earlier ∈ before, earlier.tag ≠ schema.tag) (same : field.tag = schema.tag)
      (plain : schema.type ≠ .group) (typed : validateType field.value schema.type = true) :
      Accounts message schema before.length (before.length + 1)
  | group {schema : FieldSchema} {fields : List FieldSchema} {count : ℕ}
      {before taken after : Message} {field : Field}
      (split : message = before ++ field :: (taken ++ after))
      (first : ∀ earlier ∈ before, earlier.tag ≠ schema.tag) (same : field.tag = schema.tag)
      (isGroup : schema.type = .group) (counted : parseInt field.value = some count)
      (hasFields : schema.groupSchema = some fields) (runs : WalkedRuns fields count taken after) :
      Accounts message schema before.length (before.length + 1 + taken.length)

section Walked

variable {schema fields : List FieldSchema} {run after : Message}

/-- What the walk takes is an in-order selection with all required fields. -/
theorem Walked.selects (walked : Walked schema run after) : Selects schema run := by
  induction walked with
  | nil => rw [Selects]
  | @skip first rest run after next _ _ notRequired _ ih =>
      rcases first with ⟨tag, type, presence, groupSchema⟩
      rw [Selects]
      exact .inl ⟨notRequired, ih⟩
  | @take first rest field run after same plain typed _ ih =>
      rcases first with ⟨tag, type, presence, groupSchema⟩
      rw [Selects]
      exact .inr (.inl ⟨field, run, rfl, same, plain, typed, ih⟩)

/-- The walk has no choice. -/
theorem Walked.unique {other behind : Message} (walked : Walked schema run after)
    (again : Walked schema other behind) (same : run ++ after = other ++ behind) : run = other := by
  induction walked generalizing other with
  | nil after =>
      cases again
      rfl
  | @skip first rest run after next comes differs _ _ ih =>
      cases again with
      | skip _ _ _ later => exact ih later same
      | take isTag _ _ _ =>
          rw [same] at comes
          simp only [List.cons_append, List.head?_cons, Option.some.injEq] at comes
          exact absurd (comes ▸ isTag) differs
  | @take first rest field run after isTag _ _ _ ih =>
      cases again with
      | skip comes differs _ _ =>
          rw [← same] at comes
          simp only [List.cons_append, List.head?_cons, Option.some.injEq] at comes
          exact absurd (comes ▸ isTag) differs
      | take _ _ _ later =>
          simp only [List.cons_append, List.cons.injEq] at same
          rw [ih later same.2, same.1]

theorem WalkedRuns.unique {count : ℕ} {taken other behind : Message}
    (runs : WalkedRuns fields count taken after) (again : WalkedRuns fields count other behind)
    (same : taken ++ after = other ++ behind) : taken = other := by
  induction runs generalizing other with
  | done =>
      cases again
      rfl
  | @more count run rest after walked _ _ ih =>
      cases again with
      | @more _ first later _ walkedFirst _ laterRuns =>
          rw [List.append_assoc, List.append_assoc] at same
          have firstEq := walked.unique walkedFirst same
          subst firstEq
          rw [ih laterRuns (List.append_cancel_left same)]

theorem Walked.tag_mem (walked : Walked schema run after) {field : Field} (mem : field ∈ run) :
    field.tag ∈ levelTags schema := by
  induction walked with
  | nil => cases mem
  | skip _ _ _ _ ih => exact List.mem_cons_of_mem _ (ih mem)
  | take isTag _ _ _ ih =>
      rcases List.mem_cons.mp mem with rfl | inRest
      · rw [isTag]
        exact List.mem_cons_self ..
      · exact List.mem_cons_of_mem _ (ih inRest)

/-- Every field in the runs has a tag of the group. -/
theorem WalkedRuns.tag_mem {count : ℕ} {taken : Message} (runs : WalkedRuns fields count taken after)
    {field : Field} (mem : field ∈ taken) : field.tag ∈ levelTags fields := by
  induction runs with
  | done => cases mem
  | more walked _ _ ih =>
      rcases List.mem_append.mp mem with inRun | inRest
      · exact walked.tag_mem inRun
      · exact ih inRest

end Walked

section Accounts

variable {message before after : Message} {schema : FieldSchema} {field : Field}
  {start stop index : ℕ}

theorem findIdx?_split {tag : ℕ} (split : message = before ++ field :: after)
    (first : ∀ earlier ∈ before, earlier.tag ≠ tag) (same : field.tag = tag) :
    message.findIdx? (·.tag = tag) = some before.length := by
  rw [List.findIdx?_eq_some_iff_getElem]
  subst split
  refine ⟨by simp, by simpa using same, ?_⟩
  intro earlier lt
  rw [List.getElem_append_left lt]
  simpa using first _ (List.getElem_mem lt)

theorem findIdx?_absent {tag : ℕ} (missing : ∀ field ∈ message, field.tag ≠ tag) :
    message.findIdx? (·.tag = tag) = none := by
  rw [List.findIdx?_eq_none_iff]
  intro field mem
  simpa using missing field mem

/-- The span of an entry is determined. -/
theorem Accounts.unique {first last : ℕ} (accounts : Accounts message schema start stop)
    (again : Accounts message schema first last) : start = first ∧ stop = last := by
  cases accounts with
  | absent missing _ =>
      have notFound := findIdx?_absent missing
      cases again with
      | absent => exact ⟨rfl, rfl⟩
      | plain split first same => rw [findIdx?_split split first same] at notFound; cases notFound
      | group split first same => rw [findIdx?_split split first same] at notFound; cases notFound
  | plain split earlier same plain _ =>
      have found := findIdx?_split split earlier same
      cases again with
      | absent missing => rw [findIdx?_absent missing] at found; cases found
      | plain splitAgain earlierAgain sameAgain =>
          rw [findIdx?_split splitAgain earlierAgain sameAgain] at found
          simp only [Option.some.injEq] at found
          exact ⟨found.symm, by rw [found]⟩
      | group _ _ _ isGroup => exact absurd isGroup plain
  | @group fields count before taken after field split earlier same isGroup counted hasFields
      runs =>
      have found := findIdx?_split split earlier same
      cases again with
      | absent missing => rw [findIdx?_absent missing] at found; cases found
      | plain _ _ _ plain => exact absurd isGroup plain
      | @group fieldsAgain countAgain beforeAgain takenAgain afterAgain fieldAgain splitAgain
          earlierAgain sameAgain _ countedAgain hasFieldsAgain runsAgain =>
          rw [findIdx?_split splitAgain earlierAgain sameAgain] at found
          simp only [Option.some.injEq] at found
          have whole := split.symm.trans splitAgain
          have parts := List.append_inj whole found.symm
          have rest := List.cons.inj parts.2
          rw [← rest.1, counted] at countedAgain
          rw [hasFields] at hasFieldsAgain
          cases countedAgain
          cases hasFieldsAgain
          have takenEq := runs.unique runsAgain rest.2
          exact ⟨found.symm, by rw [found, takenEq]⟩

/-- The span lies in the message. -/
theorem Accounts.stop_le (accounts : Accounts message schema start stop) :
    start ≤ stop ∧ stop ≤ message.length := by
  cases accounts with
  | absent => exact ⟨Nat.le_refl _, Nat.zero_le _⟩
  | plain split => simp [split]
  | group split =>
      simp only [split, List.length_append, List.length_cons]
      omega

end Accounts

namespace Validator

section Group

variable {message : Message} {schema fields : List FieldSchema} {validator : Validator}
  {index count : ℕ} {text taken after : Message}

/-- The walk over an entry that reports nothing has taken the fields in front of it. -/
theorem walked_of_silent (plain : ∀ field ∈ schema, field.type ≠ .group)
    (distinct : (levelTags schema).Nodup) (validator : Validator) (occurred : List ℕ)
    (here : message.drop index = text) (unseen : ∀ tag ∈ levelTags schema, tag ∉ occurred)
    (silent : (validateEntry message (validator, index) occurred schema).1.1.results.errors.length =
      validator.results.errors.length) :
    ∃ run after, text = run ++ after ∧ Walked schema run after := by
  induction schema generalizing validator index occurred text with
  | nil => exact ⟨[], text, rfl, .nil text⟩
  | cons first rest ih =>
      rcases first with ⟨tag, type, presence, groupSchema⟩
      rcases List.nodup_cons.mp distinct with ⟨unique, distinctRest⟩
      have plainRest : ∀ field ∈ rest, field.type ≠ .group := fun field mem =>
        plain field (List.mem_cons_of_mem _ mem)
      have unseenRest : ∀ other ∈ levelTags rest, other ∉ occurred := fun other mem =>
        unseen other (List.mem_cons_of_mem _ mem)
      have new : occurred.contains tag = false := by
        simpa using unseen tag (List.mem_cons_self ..)
      have notGroup : type ≠ .group := plain _ (List.mem_cons_self ..)
      cases text with
      | nil =>
          have ends : message[index]? = none := getElem?_of_drop here
          simp only [validateEntry, ends, length_errors_pushError] at silent
          omega
      | cons field tail =>
          have found : message[index]? = some field := getElem?_of_drop here
          by_cases isTag : field.tag = tag
          · simp only [validateEntry, found, isTag, ne_eq, not_true_eq_false, if_false, new,
              Bool.false_eq_true, notGroup] at silent
            split at silent
            · next typed =>
                rcases ih plainRest distinctRest (validator.mark index) (occurred ++ [tag])
                  (drop_succ_of_drop here) (unseen_snoc unseenRest unique) silent with
                  ⟨run, after, split, walked⟩
                exact ⟨field :: run, after, by rw [split]; rfl, .take isTag notGroup typed walked⟩
            · simp only [length_errors_pushError, results_mark] at silent
              omega
          · simp only [validateEntry, found, isTag, ne_eq, not_false_eq_true, if_true] at silent
            split at silent
            · simp only [length_errors_pushError] at silent
              omega
            · next optional =>
                rcases ih plainRest distinctRest validator occurred here unseenRest silent with
                  ⟨run, after, split, walked⟩
                refine ⟨run, after, split, .skip ?_ isTag optional walked⟩
                rw [← split]
                rfl

/-- The entries of a flat group are marked, and the walk ends behind them. -/
theorem repeatEntries_runs (flat : Flat fields) (runs : WalkedRuns fields count taken after)
    (validator : Validator) (here : message.drop index = taken ++ after) (groupTag : ℕ) :
    repeatEntries (fun state => validateEntry message state [] fields) groupTag count
        (validator, index) =
      (validator.markFrom index taken.length, index + taken.length) := by
  induction runs generalizing validator index with
  | done => rfl
  | @more count run rest after walked nonempty later ih =>
      rw [List.append_assoc] at here
      have entry := validateEntry_walked walked flat.distinct validator [] here (by simp)
      have some : run.map Field.tag ≠ [] := by simpa using nonempty
      have behind : message.drop (index + run.length) = rest ++ after := by
        rw [← List.drop_drop, here, List.drop_left]
      rw [repeatEntries, entry]
      simp only [List.nil_append, some, if_false]
      rw [ih _ behind, List.length_append, markFrom_add, Nat.add_assoc]

theorem validateGroups_flat (flat : Flat fields) (groupTag count : ℕ) (state : Validator × ℕ) :
    validateGroups message groupTag count state (some fields) =
      repeatEntries (fun state => validateEntry message state [] fields) groupTag count state := by
  simp only [validateGroups, flat.ne_nil, Bool.false_eq_true, if_false,
    Nat.not_lt.mpr flat.length_le]
  split
  · next zero => rw [zero, repeatEntries]
  · rfl

/-- A walk over a group that reports nothing has found as many entries as were counted. -/
theorem runs_of_silent (flat : Flat fields) (validator : Validator)
    (here : message.drop index = text) (groupTag : ℕ)
    (silent : (repeatEntries (fun state => validateEntry message state [] fields) groupTag count
      (validator, index)).1.results.errors.length = validator.results.errors.length) :
    ∃ taken after, text = taken ++ after ∧ WalkedRuns fields count taken after := by
  induction count generalizing validator index text with
  | zero => exact ⟨[], text, rfl, .done text⟩
  | succ count ih =>
      have entryWalks := @walks_validateEntry message fields [] (validator, index)
      have entrySilent : (validateEntry message (validator, index) [] fields).1.1.results.errors.length
          = validator.results.errors.length := by
        have grows := entryWalks.errors_le
        rw [repeatEntries] at silent
        rcases entry : validateEntry message (validator, index) [] fields with ⟨next, _ | occurred⟩
        · rw [entry] at silent
          exact silent
        · rw [entry] at silent grows
          simp only at silent grows ⊢
          split at silent
          · rw [length_errors_pushError] at silent
            omega
          · have rest := (walks_repeatEntries (@walks_validateEntry message fields []) groupTag
              count next).errors_le
            omega
      rcases walked_of_silent flat.plain flat.distinct validator [] here (by simp) entrySilent with
        ⟨run, after, split, walked⟩
      have entry := validateEntry_walked walked flat.distinct validator [] (here.trans split) (by simp)
      rw [repeatEntries, entry] at silent
      simp only [List.nil_append] at silent
      by_cases empty : run.map Field.tag = []
      · rw [if_pos empty, length_errors_pushError, results_markFrom] at silent
        omega
      · rw [if_neg empty] at silent
        have behind : message.drop (index + run.length) = after := by
          rw [← List.drop_drop, here, split, List.drop_left]
        have silentRest := silent
        rw [← @results_markFrom validator index run.length] at silentRest
        rcases ih _ behind silentRest with ⟨rest, beyond, splitRest, runs⟩
        refine ⟨run ++ rest, beyond, ?_, .more ?_ (by simpa using empty) runs⟩
        · rw [split, splitRest, List.append_assoc]
        · rw [← splitRest]
          exact walked

end Group

section Fields

variable {message : Message} {schema : FieldSchema} {rest table : List FieldSchema}
  {validator : Validator} {start stop : ℕ}

theorem errors_le_validateFields (message : Message) (validator : Validator)
    (table : List FieldSchema) :
    validator.results.errors.length ≤
      (validateFields message validator table).results.errors.length := by
  induction table generalizing validator with
  | nil => exact Nat.le_refl _
  | cons schema rest ih =>
      simp only [validateFields]
      split
      · next index _ =>
          by_cases isGroup : schema.type = .group
          · rw [if_pos isGroup]
            split
            · simp [length_errors_pushError]
            · next count _ =>
                have walks := @walks_validateGroups message schema.tag count
                  (validator.mark index, index + 1) schema.groupSchema
                exact walks.errors_le.trans (ih _)
          · rw [if_neg isGroup]
            split_ifs
            · exact ih (validator.mark index)
            · simp [length_errors_pushError]
      · split_ifs
        · simp [length_errors_pushError]
        · exact ih validator

/-- An entry of the table that accounts for its positions marks them. -/
theorem validateFields_accounts (grouped : Grouped schema)
    (accounts : Accounts message schema start stop) (validator : Validator) :
    validateFields message validator (schema :: rest) =
      validateFields message (validator.markFrom start (stop - start)) rest := by
  cases accounts with
  | absent missing notRequired =>
      simp only [validateFields, findIdx?_absent missing, notRequired, if_false]
      rfl
  | @plain before after field split first same plain typed =>
      have value : ((message[before.length]?).map Field.value).getD [] = field.value := by
        simp [split]
      simp only [validateFields, findIdx?_split split first same, plain, if_false, value, typed,
        if_true, Nat.add_sub_cancel_left]
      rfl
  | @group fields count before taken after field split first same isGroup counted hasFields runs =>
      have value : ((message[before.length]?).map Field.value).getD [] = field.value := by
        simp [split]
      have flat : Flat fields := by
        rcases schema with ⟨tag, type, presence, groupSchema⟩
        cases hasFields
        exact grouped.2
      have behind : message.drop (before.length + 1) = taken ++ after := by
        rw [split, ← List.drop_drop, List.drop_left]
        rfl
      simp only [validateFields, findIdx?_split split first same, isGroup, if_true, value, counted,
        hasFields, validateGroups_flat flat, repeatEntries_runs flat runs _ behind]
      rw [show before.length + 1 + taken.length - before.length = taken.length + 1 by omega]
      rfl

/-- An entry about which nothing is reported accounts for its positions. -/
theorem accounts_of_silent (grouped : Grouped schema)
    (silent : (validateFields message validator (schema :: rest)).results.errors.length =
      validator.results.errors.length) : ∃ start stop, Accounts message schema start stop := by
  cases found : message.findIdx? (·.tag = schema.tag) with
  | none =>
      simp only [validateFields, found] at silent
      split at silent
      · rw [length_errors_pushError] at silent
        omega
      · next optional =>
          refine ⟨0, 0, .absent ?_ optional⟩
          intro field mem
          simpa using List.findIdx?_eq_none_iff.mp found field mem
  | some index =>
      rcases List.findIdx?_eq_some_iff_getElem.mp found with ⟨inside, isTag, before⟩
      have split : message = message.take index ++ message[index] :: message.drop (index + 1) := by
        rw [List.getElem_cons_drop, List.take_append_drop]
      have length : (message.take index).length = index := by
        rw [List.length_take]
        omega
      have first : ∀ earlier ∈ message.take index, earlier.tag ≠ schema.tag := by
        intro earlier mem
        rcases List.mem_take_iff_getElem.mp mem with ⟨position, lt, rfl⟩
        simpa using before position (by omega)
      have value : ((message[index]?).map Field.value).getD [] = message[index].value := by
        simp [inside]
      have same : message[index].tag = schema.tag := by simpa using isTag
      simp only [validateFields, found, value] at silent
      by_cases isGroup : schema.type = .group
      · rw [if_pos isGroup] at silent
        cases counted : parseInt message[index].value with
        | none =>
            simp only [counted, length_errors_pushError, results_mark] at silent
            omega
        | some count =>
            rcases schema with ⟨tag, type, presence, groupSchema⟩
            cases groupSchema with
            | none => exact absurd isGroup grouped
            | some fields =>
                have flat : Flat fields := grouped.2
                simp only [counted, FieldSchema.groupSchema, FieldSchema.tag] at silent
                have walks := @walks_validateGroups message tag count
                  (validator.mark index, index + 1) (some fields)
                have later := errors_le_validateFields message (validateGroups message tag count
                  (validator.mark index, index + 1) (some fields)).1 rest
                have grows := walks.errors_le
                rw [validateGroups_flat flat] at silent later grows
                rcases @runs_of_silent message fields (index + 1) count (message.drop (index + 1))
                  flat (validator.mark index) rfl tag (by simp only [results_mark] at grows ⊢; omega)
                  with ⟨taken, after, splitRest, runs⟩
                rw [splitRest] at split
                exact ⟨_, _, .group split first same isGroup counted rfl runs⟩
      · rw [if_neg isGroup] at silent
        split at silent
        · next typed => exact ⟨_, _, .plain split first same isGroup typed⟩
        · simp only [length_errors_pushError, results_mark] at silent
          omega

/-- What the pass over a table does when it reports nothing. -/
structure Marked (message : Message) (table : List FieldSchema) (before after : Validator) : Prop where
  results_eq : after.results = before.results
  room : after.tagscratch.Covers message.length
  marks_iff : ∀ index, after.tagscratch.get index = true ↔ before.tagscratch.get index = true ∨
    ∃ schema ∈ table, ∃ start stop, Accounts message schema start stop ∧ start ≤ index ∧ index < stop

theorem marked_validateFields (grouped : ∀ schema ∈ table, Grouped schema)
    (room : validator.tagscratch.Covers message.length)
    (accounted : ∀ schema ∈ table, ∃ start stop, Accounts message schema start stop) :
    Marked message table validator (validateFields message validator table) := by
  induction table generalizing validator with
  | nil => exact ⟨rfl, room, by simp [validateFields]⟩
  | cons schema rest ih =>
      rcases accounted schema (List.mem_cons_self ..) with ⟨start, stop, accounts⟩
      rcases accounts.stop_le with ⟨le, inside⟩
      have roomNext : (validator.markFrom start (stop - start)).tagscratch.Covers message.length := by
        rw [TagScratch.Covers, length_markFrom]
        exact room
      have later := ih (fun other mem => grouped other (List.mem_cons_of_mem _ mem)) roomNext
        (fun other mem => accounted other (List.mem_cons_of_mem _ mem))
      rw [validateFields_accounts (grouped schema (List.mem_cons_self ..)) accounts]
      refine ⟨later.results_eq.trans results_markFrom, later.room, ?_⟩
      intro index
      rw [later.marks_iff]
      have here : (validator.markFrom start (stop - start)).tagscratch.get index = true ↔
          validator.tagscratch.get index = true ∨ (start ≤ index ∧ index < stop) := by
        by_cases within : start ≤ index ∧ index < stop
        · have marked := @get_markFrom_of_inside validator start (stop - start) index
            (by simp only [TagScratch.Covers] at room ⊢; omega) within.1 (by omega)
          simp [marked, within]
        · rw [get_markFrom_of_outside (by omega)]
          simp [within]
      rw [here, or_assoc]
      apply or_congr_right
      constructor
      · rintro (within | ⟨other, mem, found⟩)
        · exact ⟨schema, List.mem_cons_self .., start, stop, accounts, within⟩
        · exact ⟨other, List.mem_cons_of_mem _ mem, found⟩
      · rintro ⟨other, mem, first, last, again, within⟩
        rcases List.mem_cons.mp mem with rfl | inRest
        · rcases accounts.unique again with ⟨rfl, rfl⟩
          exact .inl within
        · exact .inr ⟨other, inRest, first, last, again, within⟩

/-- The pass over a table reports nothing when every entry accounts for its positions. -/
theorem accounted_of_silent (grouped : ∀ schema ∈ table, Grouped schema)
    (silent : (validateFields message validator table).results.errors.length =
      validator.results.errors.length) :
    ∀ schema ∈ table, ∃ start stop, Accounts message schema start stop := by
  induction table generalizing validator with
  | nil => intro schema mem; cases mem
  | cons first rest ih =>
      have groupedFirst := grouped first (List.mem_cons_self ..)
      rcases accounts_of_silent groupedFirst silent with ⟨start, stop, accounts⟩
      rw [validateFields_accounts groupedFirst accounts] at silent
      have silentRest := silent
      rw [← @results_markFrom validator start (stop - start)] at silentRest
      intro schema mem
      rcases List.mem_cons.mp mem with rfl | inRest
      · exact ⟨start, stop, accounts⟩
      · exact ih (fun other mem => grouped other (List.mem_cons_of_mem _ mem)) silentRest schema inRest

/-- Two tables one after the other. -/
theorem validateFields_append {front : List FieldSchema} (grouped : ∀ schema ∈ front, Grouped schema)
    (accounted : ∀ schema ∈ front, ∃ start stop, Accounts message schema start stop)
    (validator : Validator) :
    validateFields message validator (front ++ rest) =
      validateFields message (validateFields message validator front) rest := by
  induction front generalizing validator with
  | nil => rfl
  | cons schema front ih =>
      rcases accounted schema (List.mem_cons_self ..) with ⟨start, stop, accounts⟩
      have groupedFirst := grouped schema (List.mem_cons_self ..)
      rw [List.cons_append, validateFields_accounts groupedFirst accounts,
        validateFields_accounts groupedFirst accounts]
      exact ih (fun other mem => grouped other (List.mem_cons_of_mem _ mem))
        (fun other mem => accounted other (List.mem_cons_of_mem _ mem)) _

end Fields

section Message

/-- The checks that `validate_header_` makes besides those of the schema. -/
structure HeaderFits (params : SessionParameters) (view : ValidMessageView) (expectedType : Bytes) :
    Prop where
  version : ∃ first, view.message[0]? = some first ∧ first.value = defaultFixVersion
  bodyLength : ∃ second, view.message[1]? = some second ∧ validateType second.value .int = true
  type : ∃ third, view.message[2]? = some third ∧ third.value = expectedType
  number : ∃ text, view.headerCache.msgSeqNumText = some text ∧ validateType text .int = true
  sender : view.headerCache.senderCompId = some params.targetCompId
  target : view.headerCache.targetCompId = some params.senderCompId

variable {validator : Validator} {view : ValidMessageView} {params : SessionParameters}
  {expectedType : Bytes}

theorem validateHeader_fits (fits : HeaderFits params view expectedType) (validator : Validator) :
    validator.validateHeader view expectedType params =
      validateFields view.message validator Schema.standardHeader := by
  rcases fits with ⟨⟨first, atFirst, version⟩, ⟨second, atSecond, length⟩, ⟨third, atThird, type⟩,
    ⟨text, number, int⟩, sender, target⟩
  rcases split : view.message with _ | ⟨a, _ | ⟨b, _ | ⟨c, rest⟩⟩⟩
  · simp [split] at atThird
  · simp [split] at atThird
  · simp [split] at atThird
  · simp only [split, List.getElem?_cons_zero, List.getElem?_cons_succ, Option.some.injEq]
      at atFirst atSecond atThird
    subst atFirst atSecond atThird
    have typed : ∀ value, validateType value .string = true := fun _ => rfl
    simp [validateHeader, split, version, length, type, number, int, sender, target, typed]

theorem validateHeader_cases (validator : Validator) (view : ValidMessageView)
    (expectedType : Bytes) (params : SessionParameters) :
    HeaderFits params view expectedType ∨
      validator.results.errors.length <
        (validator.validateHeader view expectedType params).results.errors.length := by
  have fatal : ∀ info tag code, validator.results.errors.length <
      (validator.pushFatal info tag code).results.errors.length := by
    intro info tag code
    exact Nat.lt_of_lt_of_eq (Nat.lt_succ_self _)
      (length_errors_pushError validator info tag code).symm
  have refused : ∀ info tag code, validator.results.errors.length <
      (validator.pushError info tag code).results.errors.length := by
    intro info tag code
    exact Nat.lt_of_lt_of_eq (Nat.lt_succ_self _)
      (length_errors_pushError validator info tag code).symm
  rcases split : view.message with _ | ⟨a, _ | ⟨b, _ | ⟨c, rest⟩⟩⟩
  · right
    simpa only [validateHeader, split] using fatal _ _ _
  · right
    simpa only [validateHeader, split] using fatal _ _ _
  · right
    simpa only [validateHeader, split] using fatal _ _ _
  · simp only [validateHeader, split]
    split
    · exact .inr (fatal _ _ _)
    next version =>
    split
    · exact .inr (refused _ _ _)
    next length =>
    split
    · exact .inr (refused _ _ _)
    next type =>
    split
    · exact .inr (fatal _ _ _)
    next number =>
    split
    · exact .inr (fatal _ _ _)
    next sender =>
    split
    · exact .inr (fatal _ _ _)
    next target =>
    left
    have typed : ∀ value, validateType value .string = true := fun _ => rfl
    simp only [typed, Bool.not_true, Bool.false_or, decide_eq_true_eq, not_not,
      Bool.not_eq_true'] at version type sender target length
    refine ⟨⟨a, by simp [split], version⟩, ⟨b, by simp [split], by simpa using length⟩,
      ⟨c, by simp [split], type⟩, ?_, sender, target⟩
    cases cached : view.headerCache.msgSeqNumText with
    | none => simp [cached] at number
    | some text => exact ⟨text, rfl, by simpa [cached] using number⟩

/-- Every position of an accepted message is accounted for by an entry of a table. -/
structure Accepted (params : SessionParameters) (view : ValidMessageView) (type : Bytes)
    (schema : MessageSchema) : Prop where
  type_eq : view.headerCache.msgType = some type
  registered : Registry.get type = some schema
  fits : HeaderFits params view type
  accounted : ∀ entry ∈ schema.table, ∃ start stop, Accounts view.message entry start stop
  covered : ∀ index < view.message.length, ∃ entry ∈ schema.table, ∃ start stop,
    Accounts view.message entry start stop ∧ start ≤ index ∧ index < stop

/-- A pass over the three tables that reports nothing. -/
theorem silent_passes {cleared : Validator} {schema : MessageSchema}
    (grouped : ∀ entry ∈ schema.table, Grouped entry)
    (silent : ((validateFields view.message (cleared.validateHeader view expectedType params)
      schema.body).validateTrailer view).results.errors.length = cleared.results.errors.length) :
    HeaderFits params view expectedType ∧
      (∀ entry ∈ schema.table, ∃ start stop, Accounts view.message entry start stop) := by
  simp only [MessageSchema.table, List.mem_append] at grouped ⊢
  have bodyLe := errors_le_validateFields view.message
    (cleared.validateHeader view expectedType params) schema.body
  have trailerLe := errors_le_validateFields view.message (validateFields view.message
    (cleared.validateHeader view expectedType params) schema.body) Schema.trailer
  rw [validateTrailer] at silent
  rcases cleared.validateHeader_cases view expectedType params with fits | reported
  · have headerEq := validateHeader_fits fits cleared
    have headerLe := errors_le_validateFields view.message cleared Schema.standardHeader
    rw [← headerEq] at headerLe
    refine ⟨fits, ?_⟩
    rintro entry (inHeader | inBody | inTrailer)
    · refine @accounted_of_silent view.message _ cleared (fun entry mem => grouped entry (.inl mem))
        ?_ entry inHeader
      rw [← headerEq]
      omega
    · refine @accounted_of_silent view.message _ (cleared.validateHeader view expectedType params)
        (fun entry mem => grouped entry (.inr (.inl mem))) ?_ entry inBody
      omega
    · refine @accounted_of_silent view.message _ (validateFields view.message
        (cleared.validateHeader view expectedType params) schema.body)
        (fun entry mem => grouped entry (.inr (.inr mem))) ?_ entry inTrailer
      omega
  · omega

/-- The three passes are one over the whole table when every entry accounts for its positions. -/
theorem passes_eq {cleared : Validator} {schema : MessageSchema}
    (grouped : ∀ entry ∈ schema.table, Grouped entry) (fits : HeaderFits params view expectedType)
    (accounted : ∀ entry ∈ schema.table, ∃ start stop, Accounts view.message entry start stop) :
    (validateFields view.message (cleared.validateHeader view expectedType params)
      schema.body).validateTrailer view = validateFields view.message cleared schema.table := by
  simp only [MessageSchema.table, List.mem_append] at grouped accounted ⊢
  rw [validateTrailer, validateHeader_fits fits,
    validateFields_append (fun entry mem => grouped entry (.inl mem))
      (fun entry mem => accounted entry (.inl mem)),
    validateFields_append (fun entry mem => grouped entry (.inr (.inl mem)))
      (fun entry mem => accounted entry (.inr (.inl mem)))]

/-- A message is accepted if and only if its fields are accounted for, whatever was validated
before. -/
theorem accepted_iff (validator : Validator) (view : ValidMessageView) (params : SessionParameters) :
    (validator.validateMessage view params).results.errors = [] ↔
      ∃ type schema, Accepted params view type schema := by
  obtain ⟨cleared, clearedDef⟩ : ∃ cleared : Validator, cleared =
      ⟨{}, (validator.tagscratch.ensureBits view.message.length).clear⟩ := ⟨_, rfl⟩
  have unmarked : ∀ index, cleared.tagscratch.get index = false := by
    intro index
    rw [clearedDef]
    exact TagScratch.get_clear
  have room : cleared.tagscratch.Covers view.message.length := by
    rw [clearedDef, TagScratch.Covers, TagScratch.length_clear]
    exact TagScratch.covers_ensureBits _ _
  have silent : cleared.results.errors = [] := by rw [clearedDef]
  cases typeEq : view.headerCache.msgType with
  | none =>
      simp only [validateMessage, typeEq, errors_pushError, false_iff]
      rintro ⟨type, schema, accepted⟩
      rw [accepted.type_eq] at typeEq
      cases typeEq
  | some type =>
      cases registered : Registry.get type with
      | none =>
          simp only [validateMessage, typeEq, registered, errors_pushError, false_iff]
          rintro ⟨other, schema, accepted⟩
          rw [accepted.type_eq] at typeEq
          cases typeEq
          rw [accepted.registered] at registered
          cases registered
      | some schema =>
          have grouped := (unambiguous_of_get registered).grouped
          simp only [validateMessage, typeEq, registered, ← clearedDef]
          constructor
          · intro clean
            split at clean
            · exact absurd clean (errors_pushError _ _ _ _)
            next noLeftover =>
            rcases silent_passes grouped (by rw [clean, silent]) with ⟨fits, accounted⟩
            have marked := marked_validateFields grouped room accounted
            rw [passes_eq grouped fits accounted] at clean noLeftover
            have full : (validateFields view.message cleared schema.table).tagscratch.full
                view.message.length = true := by
              simpa [clean] using noLeftover
            refine ⟨type, schema, typeEq, registered, fits, accounted, ?_⟩
            intro index inside
            have set := TagScratch.full_iff.mp full index inside
            rw [marked.marks_iff, unmarked] at set
            simpa using set
          · rintro ⟨other, found, accepted⟩
            have same := accepted.type_eq
            rw [typeEq] at same
            cases same
            have sameSchema := accepted.registered
            rw [registered] at sameSchema
            cases sameSchema
            have marked := marked_validateFields grouped room accepted.accounted
            have full : (validateFields view.message cleared schema.table).tagscratch.full
                view.message.length = true := by
              rw [TagScratch.full_iff]
              intro index inside
              rw [marked.marks_iff]
              exact .inr (accepted.covered index inside)
            rw [passes_eq grouped accepted.fits accepted.accounted, full]
            simpa [marked.results_eq] using silent

end Message

end Validator

end FixEngine
