import FixEngine.Validation.History
import FixEngine.Validation.Scratch

/-!
# The walk over a repeating group

`validate_groups_` walks over the entries of a group with one index. `Walked` describes the part of
a message one entry takes when no nested group is met, and there the walk marks exactly that part.
A nested group moves the index to the field after it, which is then skipped: whatever the message,
that field stays unmarked (`Holed`). So the walk is exact on the group instances without nested
groups, and on no others.
-/

namespace FixEngine

namespace FieldSchema

/-- The tags of one level. -/
def levelTags (schema : List FieldSchema) : List ℕ := schema.map tag

/-- The tags of the nested count fields of one level. -/
def countTags (schema : List FieldSchema) : List ℕ :=
  (schema.filter fun field => field.type = .group).map tag

mutual

/-- All tags of a schema, those of nested groups included. -/
def allTags : List FieldSchema → List ℕ
  | [] => []
  | .mk tag _ _ groupSchema :: rest => tag :: (nestedTags groupSchema ++ allTags rest)

/-- The tags of a group, of every depth. -/
def nestedTags : Option (List FieldSchema) → List ℕ
  | none => []
  | some fields => allTags fields

end

mutual

/-- Count fields, and no others, have a group, and every group has one to 32 fields. -/
def Levels : List FieldSchema → Prop
  | [] => True
  | .mk _ type _ groupSchema :: rest => Level type groupSchema ∧ Levels rest

/-- The type is that of a group exactly where there are fields of an entry, and these are some and
not too many. -/
def Level (type : FieldType) : Option (List FieldSchema) → Prop
  | none => type ≠ .group
  | some fields =>
      type = .group ∧ fields ≠ [] ∧ fields.length ≤ Validator.maxGroupCount ∧ Levels fields

end

/-- A group schema of any depth. -/
structure WellFormed (fields : List FieldSchema) : Prop where
  ne_nil : fields ≠ []
  length_le : fields.length ≤ Validator.maxGroupCount
  levels : Levels fields
  tags_nodup : (allTags fields).Nodup

theorem levelTags_sublist (schema : List FieldSchema) :
    (levelTags schema).Sublist (allTags schema) := by
  induction schema with
  | nil => exact List.nil_sublist _
  | cons first rest ih =>
      rcases first with ⟨tag, type, presence, groupSchema⟩
      simp only [levelTags, List.map_cons, allTags, FieldSchema.tag] at ih ⊢
      apply List.Sublist.cons_cons
      exact ih.trans (List.sublist_append_right _ _)

theorem WellFormed.levelTags_nodup {fields : List FieldSchema} (wellFormed : WellFormed fields) :
    (levelTags fields).Nodup :=
  wellFormed.tags_nodup.sublist (levelTags_sublist fields)

end FieldSchema

open FieldSchema (levelTags countTags allTags)

section Entries

/-- A number of parts in a row. -/
inductive Repeated (entry : Message → Prop) : ℕ → Message → Prop
  | done : Repeated entry 0 []
  | more {count : ℕ} {first rest : Message} (here : entry first) (later : Repeated entry count rest) :
      Repeated entry (count + 1) (first ++ rest)

/-- The first field is the first one of the level. -/
def Leads (fields : List FieldSchema) (entry : Message) : Prop :=
  ∃ field, entry.head? = some field ∧ (levelTags fields).head? = some field.tag

mutual

/-- An in-order selection of the fields of a level with all required ones, in which the count of a
nested group is followed by as many conforming entries. -/
def Selects : List FieldSchema → Message → Prop
  | [], text => text = []
  | .mk tag type presence groupSchema :: rest, text =>
      (presence ≠ .required ∧ Selects rest text) ∨
        (∃ field tail, text = field :: tail ∧ field.tag = tag ∧ type ≠ .group ∧
          validateType field.value type = true ∧ Selects rest tail) ∨
        (∃ field count nested tail, text = field :: (nested ++ tail) ∧ field.tag = tag ∧
          type = .group ∧ parseInt field.value = some count ∧
          NestedEntries groupSchema count nested ∧ Selects rest tail)

/-- The entries of a nested group. -/
def NestedEntries : Option (List FieldSchema) → ℕ → Message → Prop
  | none, _, _ => False
  | some fields, count, text =>
      Repeated (fun entry => Leads fields entry ∧ Selects fields entry) count text

end

/-- The entries of a group. -/
def GroupEntries (fields : List FieldSchema) (count : ℕ) (text : Message) : Prop :=
  Repeated (fun entry => Leads fields entry ∧ Selects fields entry) count text

/-- What the walk takes for one entry in front of `after`, when it meets no nested group: a field of
the schema is taken whenever it comes next. -/
inductive Walked : List FieldSchema → Message → Message → Prop
  | nil (after : Message) : Walked [] [] after
  | skip {first : FieldSchema} {rest : List FieldSchema} {run after : Message} {next : Field}
      (comes : (run ++ after).head? = some next) (differs : next.tag ≠ first.tag)
      (notRequired : first.presence ≠ .required) (later : Walked rest run after) :
      Walked (first :: rest) run after
  | take {first : FieldSchema} {rest : List FieldSchema} {field : Field} {run after : Message}
      (same : field.tag = first.tag) (plain : first.type ≠ .group)
      (typed : validateType field.value first.type = true) (later : Walked rest run after) :
      Walked (first :: rest) (field :: run) after

variable {schema : List FieldSchema} {text after : Message}

theorem tag_mem_of_selects {field : Field} {tail : Message} (selects : Selects schema (field :: tail)) :
    field.tag ∈ levelTags schema := by
  induction schema generalizing field tail with
  | nil =>
      rw [Selects] at selects
      cases selects
  | cons first rest ih =>
      rcases first with ⟨tag, type, presence, groupSchema⟩
      rw [Selects] at selects
      simp only [levelTags, List.map_cons, List.mem_cons]
      rcases selects with ⟨_, later⟩ | ⟨_, _, same, isTag, _⟩ | ⟨_, _, _, _, same, isTag, _⟩
      · right
        exact ih later
      · left
        rw [(List.cons.inj same).1]
        exact isTag
      · left
        rw [(List.cons.inj same).1]
        exact isTag

theorem Repeated.exists_of_mem {entry : Message → Prop} {count : ℕ} (repeated : Repeated entry count text)
    {field : Field} (mem : field ∈ text) : ∃ part, entry part ∧ field ∈ part := by
  induction repeated with
  | done => cases mem
  | more here later ih =>
      rcases List.mem_append.mp mem with inFirst | inRest
      · exact ⟨_, here, inFirst⟩
      · exact ih inRest

/-- The fields of a selection have tags of the schema. -/
theorem mem_allTags_of_selects (selects : Selects schema text) {field : Field} (mem : field ∈ text) :
    field.tag ∈ allTags schema := by
  induction schema using FieldSchema.lists_induction generalizing text field with
  | nil =>
      rw [Selects] at selects
      rw [selects] at mem
      cases mem
  | cons tag type presence groupSchema rest nestedIh restIh =>
      rw [Selects] at selects
      simp only [allTags, List.mem_cons, List.mem_append]
      rcases selects with ⟨_, later⟩ | ⟨head, tail, rfl, isTag, _, _, later⟩ |
        ⟨head, count, nested, tail, rfl, isTag, _, _, entries, later⟩
      · exact .inr (.inr (restIh later mem))
      · rcases List.mem_cons.mp mem with rfl | inTail
        · exact .inl isTag
        · exact .inr (.inr (restIh later inTail))
      · rcases List.mem_cons.mp mem with rfl | inRest
        · exact .inl isTag
        rcases List.mem_append.mp inRest with inNested | inTail
        · cases groupSchema with
          | none =>
              rw [NestedEntries] at entries
              cases entries
          | some fields =>
              rw [NestedEntries] at entries
              rcases entries.exists_of_mem inNested with ⟨part, ⟨_, partSelects⟩, inPart⟩
              have inFields := nestedIh fields rfl partSelects inPart
              exact .inr (.inl (by rwa [FieldSchema.nestedTags]))
        · exact .inr (.inr (restIh later inTail))

/-- A selection without nested groups is what the walk takes, when a field from elsewhere follows. -/
theorem walked_of_selects {next : Field} (selects : Selects schema text)
    (distinct : (levelTags schema).Nodup) (follows : after.head? = some next)
    (elsewhere : next.tag ∉ levelTags schema)
    (flat : ∀ field ∈ text, field.tag ∉ countTags schema) : Walked schema text after := by
  induction schema generalizing text with
  | nil =>
      rw [Selects] at selects
      rw [selects]
      exact .nil after
  | cons first rest ih =>
      rcases first with ⟨tag, type, presence, groupSchema⟩
      rcases List.nodup_cons.mp distinct with ⟨unique, distinctRest⟩
      simp only [levelTags, List.map_cons, List.mem_cons, not_or] at elsewhere
      have flatRest : ∀ part : Message, (∀ field ∈ part, field ∈ text) →
          ∀ field ∈ part, field.tag ∉ countTags rest := by
        intro part inText field mem counts
        apply flat field (inText field mem)
        simp only [countTags, List.mem_map, List.mem_filter] at counts ⊢
        rcases counts with ⟨nested, ⟨inRest, isGroup⟩, isTag⟩
        exact ⟨nested, ⟨List.mem_cons_of_mem _ inRest, isGroup⟩, isTag⟩
      rw [Selects] at selects
      rcases selects with ⟨notRequired, later⟩ | ⟨field, tail, rfl, isTag, plain, typed, later⟩ |
        ⟨field, count, nested, tail, rfl, isTag, isGroup, _⟩
      · have walked := ih later distinctRest elsewhere.2 (flatRest text fun _ mem => mem)
        cases text with
        | nil => exact .skip follows elsewhere.1 notRequired walked
        | cons field tail =>
            refine .skip rfl ?_ notRequired walked
            intro same
            apply unique
            rw [← same]
            exact tag_mem_of_selects later
      · refine .take isTag plain typed ?_
        apply ih later distinctRest elsewhere.2
        exact flatRest tail fun _ mem => List.mem_cons_of_mem _ mem
      · exfalso
        apply flat field (List.mem_cons_self ..)
        simp [countTags, isGroup, isTag, FieldSchema.type, FieldSchema.tag]

/-- The same for a whole entry, which another entry may follow. -/
theorem walked_of_leads {next : Field} (leads : Leads schema text) (selects : Selects schema text)
    (distinct : (levelTags schema).Nodup) (follows : after.head? = some next)
    (elsewhere : next.tag ∉ levelTags schema ∨ (levelTags schema).head? = some next.tag)
    (flat : ∀ field ∈ text, field.tag ∉ countTags schema) : Walked schema text after := by
  rcases leads with ⟨field, starts, isFirst⟩
  cases schema with
  | nil => cases isFirst
  | cons first rest =>
      rcases first with ⟨tag, type, presence, groupSchema⟩
      rcases List.nodup_cons.mp distinct with ⟨unique, distinctRest⟩
      cases text with
      | nil => cases starts
      | cons head tail =>
          simp only [List.head?_cons, Option.some.injEq] at starts
          subst starts
          have isTag : tag = head.tag := by simpa [levelTags, FieldSchema.tag] using isFirst
          rw [Selects] at selects
          rcases selects with ⟨_, later⟩ | ⟨_, _, split, _, plain, typed, later⟩ |
            ⟨_, _, _, _, split, _, isGroup, _⟩
          · exfalso
            apply unique
            rw [show FieldSchema.tag (.mk tag type presence groupSchema) = head.tag from isTag]
            exact tag_mem_of_selects later
          · rcases List.cons.inj split with ⟨rfl, rfl⟩
            refine .take isTag.symm plain typed ?_
            apply walked_of_selects later distinctRest follows
            · intro inRest
              rcases elsewhere with outside | again
              · exact outside (List.mem_cons_of_mem _ inRest)
              · apply unique
                rw [Option.some.inj again]
                exact inRest
            · intro other mem counts
              apply flat other (List.mem_cons_of_mem _ mem)
              simp only [countTags, List.mem_map, List.mem_filter] at counts ⊢
              rcases counts with ⟨nested, ⟨inRest, nestedGroup⟩, nestedTag⟩
              exact ⟨nested, ⟨List.mem_cons_of_mem _ inRest, nestedGroup⟩, nestedTag⟩
          · exfalso
            apply flat head (List.mem_cons_self ..)
            simp [countTags, isGroup, isTag, FieldSchema.type, FieldSchema.tag]

end Entries

namespace Validator

section Marks

variable {validator : Validator} {index count other : ℕ}

/-- Mark `count` positions from `index` on. -/
def markFrom (validator : Validator) (index : ℕ) : ℕ → Validator
  | 0 => validator
  | count + 1 => (validator.mark index).markFrom (index + 1) count

@[simp]
theorem results_mark : (validator.mark index).results = validator.results := rfl

@[simp]
theorem results_markFrom : (validator.markFrom index count).results = validator.results := by
  induction count generalizing validator index with
  | zero => rfl
  | succ count ih => rw [markFrom, ih, results_mark]

@[simp]
theorem length_markFrom : (validator.markFrom index count).tagscratch.data.length =
    validator.tagscratch.data.length := by
  induction count generalizing validator index with
  | zero => rfl
  | succ count ih => rw [markFrom, ih, mark, TagScratch.length_set]

theorem get_markFrom_of_outside (outside : other < index ∨ index + count ≤ other) :
    (validator.markFrom index count).tagscratch.get other = validator.tagscratch.get other := by
  induction count generalizing validator index with
  | zero => rfl
  | succ count ih =>
      rw [markFrom, ih (by omega)]
      exact TagScratch.get_set_of_ne (by omega)

theorem get_markFrom_of_inside (room : validator.tagscratch.Covers (index + count))
    (low : index ≤ other) (high : other < index + count) :
    (validator.markFrom index count).tagscratch.get other = true := by
  induction count generalizing validator index with
  | zero => omega
  | succ count ih =>
      rw [markFrom]
      by_cases same : other = index
      · rw [get_markFrom_of_outside (by omega), same]
        apply TagScratch.get_set_self
        simp only [TagScratch.Covers] at room
        omega
      · apply ih
        · simp only [TagScratch.Covers, mark, TagScratch.length_set] at room ⊢
          omega
        · omega
        · omega

theorem markFrom_add (front rest : ℕ) :
    validator.markFrom index (front + rest) =
      (validator.markFrom index front).markFrom (index + front) rest := by
  induction front generalizing validator index with
  | zero => simp [markFrom]
  | succ front ih => rw [Nat.succ_add, markFrom, markFrom, ih, Nat.add_assoc, Nat.add_comm 1 front]

end Marks

section Exact

variable {message : Message} {schema : List FieldSchema}

theorem getElem?_of_drop {index : ℕ} {text : Message} (here : message.drop index = text) :
    message[index]? = text.head? := by
  rw [← here, List.head?_drop]

theorem drop_succ_of_drop {index : ℕ} {field : Field} {text : Message}
    (here : message.drop index = field :: text) : message.drop (index + 1) = text := by
  rw [← List.drop_drop, here, List.drop_one, List.tail_cons]

/-- What has occurred is added to the list, and does not come again. -/
theorem unseen_snoc {tags occurred : List ℕ} {tag : ℕ} (unseen : ∀ other ∈ tags, other ∉ occurred)
    (unique : tag ∉ tags) : ∀ other ∈ tags, other ∉ occurred ++ [tag] := by
  intro other mem
  simp only [List.mem_append, List.mem_singleton, not_or]
  refine ⟨unseen other mem, ?_⟩
  rintro rfl
  exact unique mem

/-- An entry as `Walked` describes it is marked, and the walk ends behind it. -/
theorem validateEntry_walked {run after : Message} (walked : Walked schema run after)
    (distinct : (levelTags schema).Nodup) (validator : Validator) {index : ℕ} (occurred : List ℕ)
    (here : message.drop index = run ++ after)
    (unseen : ∀ tag ∈ levelTags schema, tag ∉ occurred) :
    validateEntry message (validator, index) occurred schema =
      ((validator.markFrom index run.length, index + run.length),
        some (occurred ++ run.map Field.tag)) := by
  induction walked generalizing validator index occurred with
  | nil after => simp [validateEntry, markFrom]
  | @skip first rest run after next comes differs notRequired later ih =>
      rcases first with ⟨tag, type, presence, groupSchema⟩
      have found : message[index]? = some next := by
        rw [getElem?_of_drop here, comes]
      simp only [FieldSchema.tag, FieldSchema.presence] at differs notRequired
      simp only [validateEntry, found, differs, ne_eq, not_false_eq_true, if_true, notRequired,
        if_false]
      apply ih (List.nodup_cons.mp distinct).2 validator occurred here
      intro tag mem
      exact unseen tag (List.mem_cons_of_mem _ mem)
  | @take first rest field run after same plain typed later ih =>
      rcases first with ⟨tag, type, presence, groupSchema⟩
      have found : message[index]? = some field := getElem?_of_drop here
      simp only [FieldSchema.tag, FieldSchema.type] at same plain typed
      rcases List.nodup_cons.mp distinct with ⟨unique, distinctRest⟩
      have new : tag ∉ occurred := unseen tag (List.mem_cons_self ..)
      have notContained : occurred.contains tag = false := by simpa using new
      have unseenRest := unseen_snoc (fun other mem => unseen other (List.mem_cons_of_mem _ mem))
        unique
      have walkedRest := ih distinctRest (validator.mark index) (occurred ++ [tag])
        (drop_succ_of_drop here) unseenRest
      simp only [validateEntry, found, same, ne_eq, not_true_eq_false, if_false, notContained,
        Bool.false_eq_true, plain, typed, if_true, walkedRest]
      simp [markFrom, same, Nat.add_assoc, Nat.add_comm 1 run.length]

end Exact

section Walks

/-- What every walk keeps: it only adds errors, it moves on, it leaves the marks before it alone,
and, as long as it reports nothing, also those after it. -/
structure Walks (start stop : Validator × ℕ) : Prop where
  errors_le : start.1.results.errors.length ≤ stop.1.results.errors.length
  le : start.2 ≤ stop.2
  below : ∀ index < start.2, stop.1.tagscratch.get index = start.1.tagscratch.get index
  above : start.1.results.errors.length = stop.1.results.errors.length →
    ∀ index, stop.2 ≤ index → stop.1.tagscratch.get index = start.1.tagscratch.get index

theorem Walks.refl (start : Validator × ℕ) : Walks start start :=
  ⟨Nat.le_refl _, Nat.le_refl _, fun _ _ => rfl, fun _ _ _ => rfl⟩

theorem Walks.trans {start middle stop : Validator × ℕ} (first : Walks start middle)
    (second : Walks middle stop) : Walks start stop where
  errors_le := first.errors_le.trans second.errors_le
  le := first.le.trans second.le
  below := by
    intro index lt
    rw [second.below index (Nat.lt_of_lt_of_le lt first.le), first.below index lt]
  above := by
    intro silent index le
    have errorsFirst := first.errors_le
    have errorsSecond := second.errors_le
    rw [second.above (by omega) index le, first.above (by omega) index (second.le.trans le)]

theorem length_errors_pushError (validator : Validator) (info : Bytes) (tag : ℕ)
    (code : ValidatorError) :
    (validator.pushError info tag code).results.errors.length =
      validator.results.errors.length + 1 := by
  simp [pushError]

theorem walks_pushError (state : Validator × ℕ) (info : Bytes) (tag : ℕ) (code : ValidatorError) :
    Walks state (state.1.pushError info tag code, state.2) where
  errors_le := by simp [length_errors_pushError]
  le := Nat.le_refl _
  below := fun _ _ => rfl
  above := by simp [length_errors_pushError]

theorem walks_mark (validator : Validator) (index : ℕ) :
    Walks (validator, index) (validator.mark index, index + 1) where
  errors_le := Nat.le_refl _
  le := Nat.le_succ _
  below := fun _ lt => TagScratch.get_set_of_ne (Nat.ne_of_lt lt)
  above := fun _ _ le => TagScratch.get_set_of_ne (Nat.ne_of_gt le)

theorem walks_next (state : Validator × ℕ) : Walks state (state.1, state.2 + 1) :=
  ⟨Nat.le_refl _, Nat.le_succ _, fun _ _ => rfl, fun _ _ _ => rfl⟩

/-- The value was refused after its field was marked. -/
theorem walks_refused (validator : Validator) (index : ℕ) (info : Bytes) (tag : ℕ)
    (code : ValidatorError) :
    Walks (validator, index) ((validator.mark index).pushError info tag code, index) where
  errors_le := by simp [length_errors_pushError]
  le := Nat.le_refl _
  below := fun _ lt => TagScratch.get_set_of_ne (Nat.ne_of_lt lt)
  above := by simp [length_errors_pushError]

variable {message : Message}

theorem walks_repeatEntries {entry : Validator × ℕ → (Validator × ℕ) × Option (List ℕ)}
    (entryWalks : ∀ state, Walks state (entry state).1) (groupTag count : ℕ)
    (state : Validator × ℕ) : Walks state (repeatEntries entry groupTag count state) := by
  induction count generalizing state with
  | zero => exact .refl state
  | succ count ih =>
      have first := entryWalks state
      rw [repeatEntries]
      rcases walked : entry state with ⟨next, _ | occurred⟩
      · rw [walked] at first
        exact first
      · rw [walked] at first
        simp only
        split
        · exact first.trans (walks_pushError next _ _ _)
        · exact first.trans (ih next)

theorem walks_groups {schema : Option (List FieldSchema)}
    (entries : ∀ fields, schema = some fields → ∀ state,
      Walks state (validateEntry message state [] fields).1)
    (groupTag groupcnt : ℕ) (state : Validator × ℕ) :
    Walks state (validateGroups message groupTag groupcnt state schema) := by
  cases schema with
  | none =>
      simp only [validateGroups]
      split
      · exact .refl state
      · exact walks_pushError state _ _ _
  | some fields =>
      simp only [validateGroups]
      split
      · exact .refl state
      split
      · exact walks_pushError state _ _ _
      split
      · exact walks_pushError state _ _ _
      · exact walks_repeatEntries (entries fields rfl) groupTag groupcnt state

theorem walks_validateEntry (schema : List FieldSchema) (occurred : List ℕ)
    (state : Validator × ℕ) : Walks state (validateEntry message state occurred schema).1 := by
  induction schema using FieldSchema.lists_induction generalizing occurred state with
  | nil =>
      rw [validateEntry]
      exact .refl state
  | cons tag type presence groupSchema rest nestedIh restIh =>
      simp only [validateEntry]
      split
      · exact walks_pushError state _ _ _
      split
      · split
        · exact walks_pushError state _ _ _
        · exact restIh occurred state
      split
      · exact .refl state
      split
      · split
        · exact (walks_mark state.1 state.2).trans (walks_pushError (_, _) _ _ _)
        · next groupCount _ =>
            have nested := walks_groups (fun fields same => nestedIh fields same []) tag groupCount
              (state.1.mark state.2, state.2 + 1)
            exact (((walks_mark state.1 state.2).trans nested).trans (walks_next _)).trans
              (restIh _ _)
      split
      · exact (walks_mark state.1 state.2).trans (restIh _ _)
      · exact walks_refused state.1 state.2 _ _ _

theorem walks_validateGroups (groupTag groupcnt : ℕ) (state : Validator × ℕ)
    (schema : Option (List FieldSchema)) :
    Walks state (validateGroups message groupTag groupcnt state schema) :=
  walks_groups (fun fields _ => walks_validateEntry fields []) groupTag groupcnt state

end Walks

section Nested

variable {message : Message} {schema : List FieldSchema}

/-- Unless something is reported, a position is passed over without a mark. -/
def Holed (start stop : Validator × ℕ) : Prop :=
  start.1.results.errors.length = stop.1.results.errors.length →
    ∃ index, start.2 ≤ index ∧ index < stop.2 ∧
      stop.1.tagscratch.get index = start.1.tagscratch.get index

theorem Holed.after {start middle stop : Validator × ℕ} (first : Walks start middle)
    (second : Walks middle stop) (holed : Holed middle stop) : Holed start stop := by
  intro silent
  have errorsFirst := first.errors_le
  have errorsSecond := second.errors_le
  rcases holed (by omega) with ⟨index, low, high, same⟩
  refine ⟨index, first.le.trans low, high, ?_⟩
  rw [same]
  exact first.above (by omega) index low

theorem Holed.before {start middle stop : Validator × ℕ} (holed : Holed start middle)
    (first : Walks start middle) (second : Walks middle stop) : Holed start stop := by
  intro silent
  have errorsFirst := first.errors_le
  have errorsSecond := second.errors_le
  rcases holed (by omega) with ⟨index, low, high, same⟩
  refine ⟨index, low, Nat.lt_of_lt_of_le high second.le, ?_⟩
  rw [second.below index high, same]

/-- The field behind a nested group is passed over. -/
theorem holed_nested {start stop : Validator × ℕ} (walks : Walks start stop) :
    Holed start (stop.1, stop.2 + 1) := by
  intro silent
  exact ⟨stop.2, walks.le, Nat.lt_succ_self _, walks.above silent stop.2 (Nat.le_refl _)⟩

/-- An entry with a nested group is not marked as a whole. -/
theorem holed_validateEntry {text after : Message} (selects : Selects schema text)
    (distinct : (allTags schema).Nodup) (validator : Validator) {index : ℕ} (occurred : List ℕ)
    (here : message.drop index = text ++ after)
    (unseen : ∀ tag ∈ levelTags schema, tag ∉ occurred)
    (nested : ∃ field ∈ text, field.tag ∈ countTags schema) :
    Holed (validator, index) (validateEntry message (validator, index) occurred schema).1 := by
  induction schema generalizing text validator index occurred with
  | nil => simp [countTags] at nested
  | cons first rest ih =>
      rcases first with ⟨tag, type, presence, groupSchema⟩
      rcases nested with ⟨count, inText, counts⟩
      simp only [allTags, List.nodup_cons, List.mem_append, not_or, List.nodup_append] at distinct
      rcases distinct with ⟨⟨_, unique⟩, _, distinctRest, _⟩
      have unseenRest : ∀ other ∈ levelTags rest, other ∉ occurred := fun other mem =>
        unseen other (List.mem_cons_of_mem _ mem)
      have new : occurred.contains tag = false := by
        simpa using unseen tag (List.mem_cons_self ..)
      have unseenNext := unseen_snoc unseenRest fun mem =>
        unique ((FieldSchema.levelTags_sublist rest).subset mem)
      have countsRest : count.tag ≠ tag ∨ type ≠ .group → count.tag ∈ countTags rest := by
        intro other
        simp only [countTags, List.mem_map, List.mem_filter, List.mem_cons, decide_eq_true_eq]
          at counts ⊢
        rcases counts with ⟨field, ⟨rfl | inRest, isGroup⟩, isTag⟩
        · rcases other with differs | plain
          · exact absurd isTag.symm differs
          · exact absurd isGroup plain
        · exact ⟨field, ⟨inRest, isGroup⟩, isTag⟩
      rw [Selects] at selects
      rcases selects with ⟨notRequired, later⟩ | ⟨field, tail, rfl, isTag, plain, typed, later⟩ |
        ⟨field, groupCount, entries, tail, rfl, isTag, isGroup, counted, _⟩
      · cases text with
        | nil => cases inText
        | cons field tail =>
            have found : message[index]? = some field := getElem?_of_drop here
            have inRest : ∀ other ∈ field :: tail, other.tag ≠ tag := by
              rintro other mem rfl
              exact unique (mem_allTags_of_selects later mem)
            have differs := inRest field (List.mem_cons_self ..)
            simp only [validateEntry, found, differs, ne_eq, not_false_eq_true, if_true,
              notRequired, if_false]
            exact ih later distinctRest validator occurred here unseenRest
              ⟨count, inText, countsRest (.inl (inRest count inText))⟩
      · have found : message[index]? = some field := getElem?_of_drop here
        have inTail : count ∈ tail := by
          rcases List.mem_cons.mp inText with rfl | inTail
          · exfalso
            apply unique
            rw [← isTag]
            apply (FieldSchema.levelTags_sublist rest).subset
            have inRest := countsRest (.inr plain)
            simp only [countTags, levelTags, List.mem_map, List.mem_filter] at inRest ⊢
            rcases inRest with ⟨other, ⟨mem, _⟩, same⟩
            exact ⟨other, mem, same⟩
          · exact inTail
        simp only [validateEntry, found, isTag, ne_eq, not_true_eq_false, if_false, new,
          Bool.false_eq_true, plain, typed, if_true]
        apply Holed.after (walks_mark validator index) (walks_validateEntry rest _ _)
        exact ih later distinctRest _ _ (drop_succ_of_drop here) unseenNext
          ⟨count, inTail, countsRest (.inr plain)⟩
      · have found : message[index]? = some field := getElem?_of_drop here
        simp only [validateEntry, found, isTag, ne_eq, not_true_eq_false, if_false, new,
          Bool.false_eq_true, isGroup, if_true, counted]
        have walks : Walks (validator, index) (validateGroups message tag groupCount
            (validator.mark index, index + 1) groupSchema) :=
          (walks_mark validator index).trans (walks_validateGroups _ _ _ _)
        exact (holed_nested walks).before (walks.trans (walks_next _))
          (walks_validateEntry rest _ _)

theorem length_pos_of_leads {fields : List FieldSchema} {entry : Message}
    (leads : Leads fields entry) : entry ≠ [] := by
  rintro rfl
  rcases leads with ⟨_, starts, _⟩
  cases starts

/-- What follows an entry starts another entry or lies outside the group. -/
theorem follows_of_entries {fields : List FieldSchema} {count : ℕ} {entries : Message}
    {following : Field} (conforming : GroupEntries fields count entries)
    (outside : following.tag ∉ allTags fields) (after : Message) :
    ∃ next, (entries ++ following :: after).head? = some next ∧
      (next.tag ∉ levelTags fields ∨ (levelTags fields).head? = some next.tag) := by
  cases conforming with
  | done =>
      refine ⟨following, rfl, .inl ?_⟩
      exact fun mem => outside ((FieldSchema.levelTags_sublist fields).subset mem)
  | more here later =>
      rcases here.1 with ⟨field, starts, isFirst⟩
      refine ⟨field, ?_, .inr isFirst⟩
      simp [List.head?_append, starts]

section Instance

variable {fields : List FieldSchema} {count : ℕ} {entries after : Message} {following : Field}
  {validator : Validator} {index : ℕ}

/-- Entries without nested groups are marked, and the walk ends behind them. -/
theorem repeatEntries_flat (wellFormed : FieldSchema.WellFormed fields)
    (conforming : GroupEntries fields count entries) (outside : following.tag ∉ allTags fields)
    (flat : ∀ field ∈ entries, field.tag ∉ countTags fields)
    (here : message.drop index = entries ++ following :: after) (groupTag : ℕ) :
    repeatEntries (fun state => validateEntry message state [] fields) groupTag count
        (validator, index) =
      (validator.markFrom index entries.length, index + entries.length) := by
  induction conforming generalizing validator index with
  | done => rfl
  | @more count first rest entry later ih =>
      rcases follows_of_entries later outside after with ⟨next, comes, place⟩
      have walked := walked_of_leads entry.1 entry.2 wellFormed.levelTags_nodup comes place
        (fun field mem => flat field (List.mem_append_left _ mem))
      rw [List.append_assoc] at here
      have taken := validateEntry_walked walked wellFormed.levelTags_nodup validator [] here (by simp)
      have nonempty : first.map Field.tag ≠ [] := by
        simpa using length_pos_of_leads entry.1
      have behind : message.drop (index + first.length) = rest ++ following :: after := by
        rw [← List.drop_drop, here, List.drop_left]
      rw [repeatEntries, taken]
      simp only [List.nil_append, nonempty, if_false]
      rw [ih (fun field mem => flat field (List.mem_append_right _ mem)) behind, List.length_append,
        markFrom_add, Nat.add_assoc]

/-- Entries with a nested group are not marked as a whole. -/
theorem holed_repeatEntries (wellFormed : FieldSchema.WellFormed fields)
    (conforming : GroupEntries fields count entries) (outside : following.tag ∉ allTags fields)
    (nested : ∃ field ∈ entries, field.tag ∈ countTags fields)
    (here : message.drop index = entries ++ following :: after) (validator : Validator)
    (groupTag : ℕ) :
    Holed (validator, index)
      (repeatEntries (fun state => validateEntry message state [] fields) groupTag count
        (validator, index)) := by
  induction conforming generalizing validator index with
  | done => simp at nested
  | @more count first rest entry later ih =>
      rw [List.append_assoc] at here
      have walks : ∀ state, Walks state (validateEntry message state [] fields).1 :=
        walks_validateEntry fields []
      by_cases inFirst : ∃ field ∈ first, field.tag ∈ countTags fields
      · have holed := holed_validateEntry entry.2 wellFormed.tags_nodup validator [] here (by simp)
          inFirst
        have firstWalks := walks (validator, index)
        rw [repeatEntries]
        rcases taken : validateEntry message (validator, index) [] fields with ⟨next, _ | occurred⟩
        · rw [taken] at holed
          exact holed
        · rw [taken] at holed firstWalks
          simp only
          split
          · exact holed.before firstWalks (walks_pushError next _ _ _)
          · exact holed.before firstWalks (walks_repeatEntries walks groupTag count next)
      · have flat : ∀ field ∈ first, field.tag ∉ countTags fields := fun field mem counts =>
          inFirst ⟨field, mem, counts⟩
        have nestedRest : ∃ field ∈ rest, field.tag ∈ countTags fields := by
          rcases nested with ⟨field, mem, counts⟩
          rcases List.mem_append.mp mem with mem | mem
          · exact absurd counts (flat field mem)
          · exact ⟨field, mem, counts⟩
        rcases follows_of_entries later outside after with ⟨next, comes, place⟩
        have walked := walked_of_leads entry.1 entry.2 wellFormed.levelTags_nodup comes place flat
        have taken := validateEntry_walked walked wellFormed.levelTags_nodup validator [] here
          (by simp)
        have nonempty : first.map Field.tag ≠ [] := by
          simpa using length_pos_of_leads entry.1
        have behind : message.drop (index + first.length) = rest ++ following :: after := by
          rw [← List.drop_drop, here, List.drop_left]
        have firstWalks := walks (validator, index)
        rw [taken] at firstWalks
        rw [repeatEntries, taken]
        simp only [List.nil_append, nonempty, if_false]
        exact (ih nestedRest behind _).after firstWalks (walks_repeatEntries walks groupTag count _)

end Instance

/-- The walk from `start` to `stop` reports nothing, ends behind the next `length` fields and marks
exactly these. -/
structure ExactWalk (start stop : Validator × ℕ) (length : ℕ) : Prop where
  results_eq : stop.1.results = start.1.results
  index_eq : stop.2 = start.2 + length
  marks_iff : ∀ index, stop.1.tagscratch.get index = true ↔
    start.1.tagscratch.get index = true ∨ (start.2 ≤ index ∧ index < start.2 + length)

theorem exactWalk_markFrom {validator : Validator} {index length : ℕ}
    (room : validator.tagscratch.Covers (index + length)) :
    ExactWalk (validator, index) (validator.markFrom index length, index + length) length where
  results_eq := results_markFrom
  index_eq := rfl
  marks_iff := by
    intro other
    by_cases inside : index ≤ other ∧ other < index + length
    · simp [get_markFrom_of_inside room inside.1 inside.2, inside]
    · rw [get_markFrom_of_outside (by omega)]
      simp [inside]

/-- The walk over the entries behind a count field is exact if and only if no entry has a nested
group. -/
theorem validateGroups_exact_iff {fields : List FieldSchema}
    (wellFormed : FieldSchema.WellFormed fields) {before entries after : Message}
    {countField following : Field} {count : ℕ}
    (conforming : GroupEntries fields count entries) (outside : following.tag ∉ allTags fields)
    (validator : Validator)
    (room : validator.tagscratch.Covers
      (before ++ countField :: (entries ++ following :: after)).length)
    (unmarked : ∀ index, before.length < index → index ≤ before.length + entries.length →
      validator.tagscratch.get index = false) :
    ExactWalk (validator, before.length + 1)
        (validateGroups (before ++ countField :: (entries ++ following :: after)) countField.tag
          count (validator, before.length + 1) (some fields)) entries.length ↔
      ∀ field ∈ entries, field.tag ∉ countTags fields := by
  have here : (before ++ countField :: (entries ++ following :: after)).drop (before.length + 1) =
      entries ++ following :: after := by
    rw [← List.drop_drop, List.drop_left]
    rfl
  have walked : validateGroups (before ++ countField :: (entries ++ following :: after))
      countField.tag count (validator, before.length + 1) (some fields) =
      repeatEntries (fun state => validateEntry (before ++ countField ::
        (entries ++ following :: after)) state [] fields) countField.tag count
        (validator, before.length + 1) := by
    have notEmpty : fields.isEmpty = false := by simpa using wellFormed.ne_nil
    simp only [validateGroups, notEmpty, Bool.false_eq_true, if_false,
      Nat.not_lt.mpr wellFormed.length_le]
    split
    · next zero => rw [zero, repeatEntries]
    · rfl
  rw [walked]
  constructor
  · intro exact_ field mem counts
    have holed := holed_repeatEntries wellFormed conforming outside ⟨field, mem, counts⟩ here
      validator countField.tag
    rcases holed (by rw [exact_.results_eq]) with ⟨index, low, high, same⟩
    rw [exact_.index_eq] at high
    have marked := (exact_.marks_iff index).mpr (.inr ⟨low, high⟩)
    simp only at low high same
    rw [same, unmarked index (by omega) (by omega)] at marked
    cases marked
  · intro flat
    rw [repeatEntries_flat wellFormed conforming outside flat here]
    apply exactWalk_markFrom
    simp only [TagScratch.Covers, List.length_append, List.length_cons] at room ⊢
    omega

end Nested

section Parties

/-- A group with a nested group between two of its fields. -/
def partyGroup : List FieldSchema :=
  [.plain 448 .string .required,
    .mk 802 .group .optional (some [.plain 523 .string .required]),
    .plain 452 .int .required]

theorem allTags_partyGroup : allTags partyGroup = [448, 802, 523, 452] := by
  simp [partyGroup, allTags, FieldSchema.nestedTags, FieldSchema.plain]

theorem wellFormed_partyGroup : FieldSchema.WellFormed partyGroup where
  ne_nil := by simp [partyGroup]
  length_le := by decide
  levels := by
    simp [partyGroup, FieldSchema.Levels, FieldSchema.Level, FieldSchema.plain, maxGroupCount]
  tags_nodup := by
    rw [allTags_partyGroup]
    decide

/-- An entry without the nested group. -/
def flatParty : Message := [⟨448, ascii "A"⟩, ⟨452, ascii "1"⟩]

/-- An entry with it. -/
def nestedParty : Message :=
  [⟨448, ascii "A"⟩, ⟨802, ascii "1"⟩, ⟨523, ascii "B"⟩, ⟨452, ascii "1"⟩]

/-- NoPartyIDs of one entry. -/
def partyCount : Field := ⟨453, ascii "1"⟩

/-- The field behind the group. -/
def partyEnd : Field := ⟨10, ascii "000"⟩

theorem partyEnd_outside : partyEnd.tag ∉ allTags partyGroup := by
  rw [allTags_partyGroup]
  decide

/-- A validator with room for a short message. -/
def roomy : Validator := ⟨{}, (({} : TagScratch).ensureBits 8).clear⟩

theorem groupEntries_single {fields : List FieldSchema} {entry : Message}
    (leads : Leads fields entry) (selects : Selects fields entry) : GroupEntries fields 1 entry := by
  have single : Repeated (fun entry => Leads fields entry ∧ Selects fields entry) 1 (entry ++ []) :=
    .more ⟨leads, selects⟩ .done
  rwa [List.append_nil] at single

theorem groupEntries_flatParty : GroupEntries partyGroup 1 flatParty := by
  apply groupEntries_single ⟨_, rfl, rfl⟩
  simp [partyGroup, flatParty, Selects, FieldSchema.plain, validateType]
  decide

theorem groupEntries_nestedParty : GroupEntries partyGroup 1 nestedParty := by
  have inner : GroupEntries [.plain 523 .string .required] 1 [⟨523, ascii "B"⟩] := by
    apply groupEntries_single ⟨_, rfl, rfl⟩
    simp [Selects, FieldSchema.plain, validateType]
  apply groupEntries_single ⟨_, rfl, rfl⟩
  simp only [partyGroup, FieldSchema.plain, Selects]
  refine .inr (.inl ⟨_, _, rfl, rfl, by decide, by decide, ?_⟩)
  refine .inr (.inr ⟨_, 1, [⟨523, ascii "B"⟩], _, rfl, rfl, trivial, by decide, ?_, ?_⟩)
  · rw [NestedEntries]
    exact inner
  · exact .inr (.inl ⟨_, _, rfl, rfl, by decide, by decide, rfl⟩)

theorem validateGroups_exact_flatParty :
    ExactWalk (roomy, 1)
      (validateGroups (partyCount :: (flatParty ++ [partyEnd])) 453 1 (roomy, 1)
        (some partyGroup)) 2 :=
  (@validateGroups_exact_iff partyGroup wellFormed_partyGroup [] flatParty [] partyCount partyEnd 1
    groupEntries_flatParty partyEnd_outside roomy
    (by simp [TagScratch.Covers, roomy, TagScratch.ensureBits, flatParty])
    (fun _ _ _ => TagScratch.get_clear)).mpr (by decide)

/-- The field behind the nested group is skipped, and found missing. -/
theorem validateGroups_skips :
    GroupEntries partyGroup 1 nestedParty ∧ partyEnd.tag ∉ allTags partyGroup ∧
      ¬ExactWalk (roomy, 1)
        (validateGroups (partyCount :: (nestedParty ++ [partyEnd])) 453 1 (roomy, 1)
          (some partyGroup)) 4 := by
  refine ⟨groupEntries_nestedParty, partyEnd_outside, ?_⟩
  intro exact_
  exact absurd exact_.results_eq (by decide +kernel)

end Parties

end Validator

end FixEngine
