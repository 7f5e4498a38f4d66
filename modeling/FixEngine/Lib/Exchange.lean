import Mathlib.Logic.Relation
import Mathlib.Logic.Function.Basic
import Mathlib.Data.List.Infix

/-!
# Processes that answer each other

Processes that read each other's messages in the order they were sent in, each from one source. What a
process does depends on what it has read only, and it never takes back what it has sent. So the order
of the steps does not matter: whatever one run leads to when no message is left, every run leads to.
-/

namespace FixEngine

open Relation (ReflTransGen ReflGen Join)

/-- What a process does with a message, and what it has sent so far. -/
structure Process (State Letter : Type*) where
  receive : State → Letter → State
  sent : State → List Letter
  sent_receive : ∀ state letter, sent state <+: sent (receive state letter)

namespace Process

variable {State Letter Name : Type*} [DecidableEq Name]

/-- A process and the number of messages it has read. -/
structure Reader (State : Type*) where
  state : State
  heard : ℕ

/-- One process reads the next message from its source. -/
inductive Step (process : Process State Letter) (source : Name → Name) :
    (Name → Reader State) → (Name → Reader State) → Prop
  | mk (readers : Name → Reader State) (name : Name) (letter : Letter)
      (next : (process.sent (readers (source name)).state)[(readers name).heard]? = some letter) :
      Step process source readers (Function.update readers name
        ⟨process.receive (readers name).state letter, (readers name).heard + 1⟩)

/-- Everything that was sent has been read. -/
def Quiet (process : Process State Letter) (source : Name → Name) (readers : Name → Reader State) :
    Prop :=
  ∀ name, (process.sent (readers (source name)).state).length ≤ (readers name).heard

section Confluence

variable {process : Process State Letter} {source : Name → Name}
  {readers first second last : Name → Reader State}

/-- A message that can be read can still be read after a step of another process. -/
theorem next_update {name other : Name} {letter read : Letter}
    (next : (process.sent (readers (source name)).state)[(readers name).heard]? = some letter) :
    (process.sent ((Function.update readers other ⟨process.receive (readers other).state read,
      (readers other).heard + 1⟩) (source name)).state)[(readers name).heard]? = some letter := by
  by_cases same : source name = other
  · rw [same, Function.update_self]
    rw [same] at next
    rcases process.sent_receive (readers other).state read with ⟨more, grown⟩
    rw [← grown]
    rw [List.getElem?_append_left (List.getElem?_eq_some_iff.mp next).1]
    exact next
  · rw [Function.update_of_ne same]
    exact next

/-- Steps of two processes can be taken in either order. -/
theorem diamond (left : Step process source readers first)
    (right : Step process source readers second) :
    ∃ both, ReflGen (Step process source) first both ∧
      ReflTransGen (Step process source) second both := by
  rcases left with ⟨name, letter, next⟩
  rcases right with ⟨other, read, nextOther⟩
  by_cases same : name = other
  · subst same
    rw [next, Option.some.injEq] at nextOther
    subst nextOther
    exact ⟨_, .refl, .refl⟩
  · have afterFirst := @Step.mk _ _ _ _ process source
      (Function.update readers name ⟨process.receive (readers name).state letter,
        (readers name).heard + 1⟩) other read (by
          rw [Function.update_of_ne (Ne.symm same)]
          exact next_update nextOther)
    have afterSecond := @Step.mk _ _ _ _ process source
      (Function.update readers other ⟨process.receive (readers other).state read,
        (readers other).heard + 1⟩) name letter (by
          rw [Function.update_of_ne same]
          exact next_update next)
    rw [Function.update_of_ne (Ne.symm same)] at afterFirst
    rw [Function.update_of_ne same, Function.update_comm (Ne.symm same)] at afterSecond
    exact ⟨_, .single afterFirst, .single afterSecond⟩

theorem Quiet.no_step (quiet : process.Quiet source readers)
    (step : Step process source readers first) : False := by
  rcases step with ⟨name, letter, next⟩
  have inside := (List.getElem?_eq_some_iff.mp next).1
  have := quiet name
  omega

/-- If one run ends with nothing left to read, every run can be continued to the same end. -/
theorem Quiet.reached (quiet : process.Quiet source last)
    (run : ReflTransGen (Step process source) readers last)
    (other : ReflTransGen (Step process source) readers first) :
    ReflTransGen (Step process source) first last := by
  rcases Relation.church_rosser (fun _ _ _ => diamond) run other with ⟨joined, fromLast, fromFirst⟩
  rcases ReflTransGen.cases_head fromLast with same | ⟨_, step, -⟩
  · rw [same]
    exact fromFirst
  · exact (quiet.no_step step).elim

end Confluence

end Process

end FixEngine
