import Mathlib.Data.Finset.Card
import Mathlib.Data.List.Nodup
import Mathlib.Data.List.Pairwise

/-!
# Recency

A history lists what was used, the last use first. `recent` are the elements of a history, each
once and in the order of their last uses: what a cache that evicts the least recently used element
goes through from the front to the back.
-/

namespace FixEngine

namespace Recency

variable {α : Type} [DecidableEq α]

/-- What was used, without repetition, the latest first; the history is read from the latest on. -/
def recent : List α → List α
  | [] => []
  | used :: history => used :: (recent history).erase used

variable {history : List α}

theorem nodup_recent : (recent history).Nodup := by
  induction history with
  | nil => exact List.nodup_nil
  | cons used history ih => exact List.nodup_cons.mpr ⟨ih.not_mem_erase, ih.erase used⟩

@[simp]
theorem mem_recent {element : α} : element ∈ recent history ↔ element ∈ history := by
  induction history with
  | nil => simp [recent]
  | cons used history ih =>
      by_cases same : element = used
      · simp [recent, same]
      · simp [recent, same, List.mem_erase_of_ne same, ih]

theorem recent_cons_of_not_mem {used : α} (unused : used ∉ history) :
    recent (used :: history) = used :: recent history := by
  rw [recent, List.erase_of_not_mem (by simpa using unused)]

theorem length_recent_cons_of_mem {used : α} (again : used ∈ history) :
    (recent (used :: history)).length = (recent history).length := by
  rw [recent, List.length_cons, List.length_erase_add_one (by simpa using again)]

/-- Where nothing was used twice the history is its own order of recency. -/
theorem recent_eq_self (once : history.Nodup) : recent history = history := by
  induction history with
  | nil => rfl
  | cons used history ih =>
      rcases List.nodup_cons.mp once with ⟨absent, rest⟩
      rw [recent_cons_of_not_mem absent, ih rest]

/-- Of two elements the one in front was used later. -/
theorem pairwise_recent :
    (recent history).Pairwise fun newer older => history.idxOf newer < history.idxOf older := by
  induction history with
  | nil => exact List.Pairwise.nil
  | cons used history ih =>
      have differs : ∀ element ∈ (recent history).erase used, used ≠ element := by
        intro element listed same
        exact nodup_recent.not_mem_erase (same ▸ listed)
      refine List.pairwise_cons.mpr ⟨?_, ?_⟩
      · intro element listed
        rw [List.idxOf_cons_self, List.idxOf_cons_ne _ (differs element listed)]
        exact Nat.succ_pos _
      · refine (ih.sublist List.erase_sublist).imp_of_mem ?_
        intro newer older newerListed olderListed later
        rw [List.idxOf_cons_ne _ (differs newer newerListed),
          List.idxOf_cons_ne _ (differs older olderListed)]
        exact Nat.succ_lt_succ later

theorem length_recent : (recent history).length = history.toFinset.card := by
  rw [← List.toFinset_card_of_nodup nodup_recent]
  congr 1
  ext element
  simp

theorem length_recent_le_cons (used : α) :
    (recent history).length ≤ (recent (used :: history)).length := by
  simp only [length_recent, List.toFinset_cons]
  exact Finset.card_le_card (Finset.subset_insert _ _)

end Recency

end FixEngine
