import FixEngine.Core.Validator

/-!
# Required fields

A message without errors has the required fields of its schemas, so the handlers find what they
look for.
-/

namespace FixEngine

namespace Validator

variable {message : Message} {validator : Validator} {schemas : List FieldSchema}

theorem errors_pushError (validator : Validator) (info : Bytes) (tag : ℕ) (code : ValidatorError) :
    (validator.pushError info tag code).results.errors ≠ [] := by
  simp [pushError]

/-- Schemas without groups: a field that is missing or of the wrong type is an error. -/
theorem found_of_validateFields (plain : ∀ schema ∈ schemas, schema.type ≠ .group)
    (clean : (validateFields message validator schemas).results.errors = []) :
    validator.results.errors = [] ∧ ∀ schema ∈ schemas, schema.presence = .required →
      ∃ value, message.firstValue? schema.tag = some value := by
  induction schemas generalizing validator with
  | nil => exact ⟨clean, by simp⟩
  | cons schema rest ih =>
      have plainRest : ∀ later ∈ rest, later.type ≠ .group := fun later mem =>
        plain later (List.mem_cons_of_mem _ mem)
      rw [validateFields] at clean
      cases found : message.findIdx? (·.tag = schema.tag) with
      | none =>
          simp only [found] at clean
          split at clean
          · exact absurd clean (errors_pushError _ _ _ _)
          · next optional =>
              rcases ih plainRest clean with ⟨before, later⟩
              refine ⟨before, fun other mem required => ?_⟩
              rcases List.mem_cons.mp mem with rfl | inRest
              · exact absurd required optional
              · exact later other inRest required
      | some index =>
          simp only [found, plain schema (List.mem_cons_self ..), if_false] at clean
          split at clean
          · rcases ih plainRest clean with ⟨before, later⟩
            refine ⟨before, fun other mem required => ?_⟩
            rcases List.mem_cons.mp mem with rfl | inRest
            · have isSome : (message.find? (·.tag = other.tag)).isSome = true := by
                rw [List.find?_isSome]
                rcases List.findIdx?_eq_some_iff_getElem.mp found with ⟨lt, isTag, -⟩
                exact ⟨_, List.getElem_mem lt, isTag⟩
              rcases Option.isSome_iff_exists.mp isSome with ⟨field, foundField⟩
              exact ⟨field.value, by simp [Message.firstValue?, foundField]⟩
            · exact later other inRest required
          · exact absurd clean (errors_pushError _ _ _ _)

/-- The body of a valid message has the required fields, where it has no groups. -/
theorem found_of_validateMessage {view : ValidMessageView} {params : SessionParameters}
    {type : Bytes} {schema : MessageSchema}
    (clean : (validator.validateMessage view params).results.errors = [])
    (type_eq : view.headerCache.msgType = some type) (registered : Registry.get type = some schema)
    (plain : ∀ field ∈ schema.body, field.type ≠ .group) :
    ∀ field ∈ schema.body, field.presence = .required →
      ∃ value, view.message.firstValue? field.tag = some value := by
  have plainTrailer : ∀ field ∈ Schema.trailer, field.type ≠ .group := by decide
  simp only [validateMessage, type_eq, registered] at clean
  split at clean
  · exact absurd clean (errors_pushError _ _ _ _)
  · exact (found_of_validateFields plain (found_of_validateFields plainTrailer clean).1).2

end Validator

end FixEngine
