import Mathlib.Data.List.Basic
import Mathlib.Data.List.Infix
import Mathlib.Data.List.TakeDrop

/-!
# Byte strings and text searches

Byte strings are lists of `UInt8`. The searches below are those of a string view: the first
occurrence of a byte, the first and the last occurrence of a text. `cut` is a search followed
by the two slices around the hit, the shape in which delimited text is read.
-/

namespace FixEngine

/-- The bytes of a wire, a field or a buffer. -/
abbrev Bytes := List UInt8

/-- The bytes of an ASCII text. -/
def ascii (text : String) : Bytes := text.toList.map fun c => UInt8.ofNat c.toNat

/-- Overwrite memory from `offset` on with `source`, as `memcpy` does. -/
def memcpy {α : Type} (memory : List α) (offset : ℕ) (source : List α) : List α :=
  memory.take offset ++ source ++ memory.drop (offset + source.length)

/-- A `memcpy` or `memmove` between two allocations, or inside one. -/
structure Copy where
  fromOffset : ℕ
  fromSize : ℕ
  toOffset : ℕ
  toSize : ℕ
  length : ℕ
  deriving DecidableEq, Repr

/-- No cell outside the two allocations is touched. -/
def Copy.InBounds (copy : Copy) : Prop :=
  copy.fromOffset + copy.length ≤ copy.fromSize ∧ copy.toOffset + copy.length ≤ copy.toSize

/-- The text before and after the first `byte`. -/
def cut (byte : UInt8) : Bytes → Option (Bytes × Bytes)
  | [] => none
  | b :: rest =>
      if b = byte then some ([], rest)
      else (cut byte rest).map fun parts => (b :: parts.1, parts.2)

/-- The position of the first occurrence of a text. -/
def find (needle : Bytes) : Bytes → Option ℕ
  | [] => if needle = [] then some 0 else none
  | b :: rest =>
      if needle.isPrefixOf (b :: rest) then some 0 else (find needle rest).map (· + 1)

/-- The position of the last occurrence of a text. -/
def rfind (needle : Bytes) : Bytes → Option ℕ
  | [] => if needle = [] then some 0 else none
  | b :: rest =>
      match rfind needle rest with
      | some position => some (position + 1)
      | none => if needle.isPrefixOf (b :: rest) then some 0 else none

section Memcpy

variable {α : Type} {memory : List α} {offset : ℕ} (source : List α)

theorem length_memcpy (fits : offset ≤ memory.length) :
    (memcpy memory offset source).length = max memory.length (offset + source.length) := by
  simp only [memcpy, List.length_append, List.length_take, List.length_drop]
  omega

/-- What lies below and at the written range after a copy. -/
theorem take_memcpy (fits : offset ≤ memory.length) :
    (memcpy memory offset source).take (offset + source.length) =
      memory.take offset ++ source := by
  have len : (memory.take offset ++ source).length = offset + source.length := by
    simp [Nat.min_eq_left fits]
  rw [memcpy, ← len, List.take_left]

end Memcpy

section Cut

variable {byte : UInt8}

@[simp]
theorem cut_append {before : Bytes} (after : Bytes) (absent : byte ∉ before) :
    cut byte (before ++ byte :: after) = some (before, after) := by
  induction before with
  | nil => simp [cut]
  | cons b rest ih =>
      simp only [List.mem_cons, not_or] at absent
      simp [cut, ih absent.2, Ne.symm absent.1]

theorem cut_eq_none {text : Bytes} : cut byte text = none ↔ byte ∉ text := by
  induction text with
  | nil => simp [cut]
  | cons b rest ih =>
      by_cases same : b = byte
      · simp [cut, same]
      · simp [cut, same, ih, Ne.symm same]

theorem cut_eq_some {text before after : Bytes} :
    cut byte text = some (before, after) ↔ text = before ++ byte :: after ∧ byte ∉ before := by
  constructor
  · intro found
    induction text generalizing before after with
    | nil => simp [cut] at found
    | cons b rest ih =>
        by_cases same : b = byte
        · simp only [cut, same, if_true, Option.some.injEq, Prod.mk.injEq] at found
          simp [← found.1, ← found.2, same]
        · simp only [cut, same, if_false, Option.map_eq_some_iff, Prod.mk.injEq] at found
          obtain ⟨⟨l, r⟩, inner, rfl, rfl⟩ := found
          obtain ⟨rfl, absent⟩ := ih inner
          simp [absent, Ne.symm same]
  · rintro ⟨rfl, absent⟩
    exact cut_append after absent

/-- A cut that succeeded is not disturbed by text that arrives later. -/
theorem cut_append_of_some {text before after : Bytes} (later : Bytes)
    (found : cut byte text = some (before, after)) :
    cut byte (text ++ later) = some (before, after ++ later) := by
  obtain ⟨rfl, absent⟩ := cut_eq_some.mp found
  simpa using cut_append (after ++ later) absent

end Cut

section Find

variable {needle : Bytes}

theorem find_eq_some {text : Bytes} {position : ℕ} (found : find needle text = some position) :
    needle <+: text.drop position ∧ position ≤ text.length := by
  induction text generalizing position with
  | nil =>
      by_cases empty : needle = []
      · simp_all [find]
      · simp [find, empty] at found
  | cons b rest ih =>
      by_cases here : needle.isPrefixOf (b :: rest)
      · simp only [find, here, if_true, Option.some.injEq] at found
        subst found
        simpa using here
      · simp only [find, here, Bool.false_eq_true, if_false, Option.map_eq_some_iff] at found
        obtain ⟨inner, foundInner, rfl⟩ := found
        simpa using ih foundInner

/-- The position found is the first one. -/
theorem not_prefix_of_lt_find {text : Bytes} {position earlier : ℕ}
    (found : find needle text = some position) (lt : earlier < position) :
    ¬needle <+: text.drop earlier := by
  induction text generalizing position earlier with
  | nil =>
      by_cases empty : needle = []
      · simp only [find, empty, if_true, Option.some.injEq] at found
        omega
      · simp [find, empty] at found
  | cons b rest ih =>
      by_cases here : needle.isPrefixOf (b :: rest)
      · simp only [find, here, if_true, Option.some.injEq] at found
        omega
      · simp only [find, here, Bool.false_eq_true, if_false, Option.map_eq_some_iff] at found
        obtain ⟨inner, foundInner, rfl⟩ := found
        rcases earlier with _ | earlier
        · simpa using here
        · simpa using ih foundInner (by omega)

theorem find_eq_none {text : Bytes} (absent : find needle text = none) (position : ℕ) :
    ¬needle <+: text.drop position := by
  induction text generalizing position with
  | nil =>
      by_cases empty : needle = []
      · simp [find, empty] at absent
      · simpa using empty
  | cons b rest ih =>
      by_cases here : needle.isPrefixOf (b :: rest)
      · simp [find, here] at absent
      · simp only [find, here, Bool.false_eq_true, if_false, Option.map_eq_none_iff] at absent
        rcases position with _ | position
        · simpa using here
        · simpa using ih absent position

/-- `find` returns the first position at which the text starts with the needle. -/
theorem find_eq_of_first {text : Bytes} {position : ℕ} (here : needle <+: text.drop position)
    (first : ∀ earlier < position, ¬needle <+: text.drop earlier) :
    find needle text = some position := by
  cases found : find needle text with
  | none => exact absurd here (find_eq_none found position)
  | some other =>
      congr 1
      rcases Nat.lt_trichotomy other position with lt | same | gt
      · exact absurd (find_eq_some found).1 (first other lt)
      · exact same
      · exact absurd here (not_prefix_of_lt_find found gt)

/-- A text is not found where its first byte does not occur. -/
theorem find_append_of_not_mem {c : UInt8} {tail before : Bytes} (absent : c ∉ before)
    (rest : Bytes) :
    find (c :: tail) (before ++ rest) = (find (c :: tail) rest).map (· + before.length) := by
  induction before with
  | nil => simp
  | cons b before ih =>
      simp only [List.mem_cons, not_or] at absent
      rw [List.cons_append, find, if_neg (by simp [absent.1]), ih absent.2, Option.map_map]
      congr 1

theorem find_prefix (rest : Bytes) : find needle (needle ++ rest) = some 0 :=
  find_eq_of_first (by simp) (by omega)

theorem rfind_eq_none {text : Bytes} (absent : rfind needle text = none) (position : ℕ) :
    ¬needle <+: text.drop position := by
  induction text generalizing position with
  | nil =>
      by_cases empty : needle = []
      · simp [rfind, empty] at absent
      · simpa using empty
  | cons b rest ih =>
      cases inner : rfind needle rest with
      | some innerPosition => simp [rfind, inner] at absent
      | none =>
          rcases position with _ | position
          · simpa [rfind, inner] using absent
          · simpa using ih inner position

theorem rfind_eq_some {text : Bytes} {position : ℕ} (found : rfind needle text = some position) :
    needle <+: text.drop position ∧ position ≤ text.length := by
  induction text generalizing position with
  | nil =>
      by_cases empty : needle = []
      · simp_all [rfind]
      · simp [rfind, empty] at found
  | cons b rest ih =>
      cases inner : rfind needle rest with
      | some innerPosition =>
          simp only [rfind, inner, Option.some.injEq] at found
          subst found
          simpa using ih inner
      | none =>
          simp only [rfind, inner] at found
          split at found
          · next here =>
              cases found
              simpa using here
          · cases found

/-- The position found is the last one. -/
theorem not_prefix_of_rfind_lt {text : Bytes} {position later : ℕ}
    (found : rfind needle text = some position) (lt : position < later)
    (le : later ≤ text.length) : ¬needle <+: text.drop later := by
  induction text generalizing position later with
  | nil => simp only [List.length_nil] at le; omega
  | cons b rest ih =>
      rcases later with _ | later
      · omega
      · cases inner : rfind needle rest with
        | some innerPosition =>
            simp only [rfind, inner, Option.some.injEq] at found
            simpa using ih inner (by omega) (by simpa using le)
        | none => simpa using rfind_eq_none inner later

/-- `rfind` returns the last position at which the text starts with the needle. -/
theorem rfind_eq_of_last {text : Bytes} {position : ℕ} (here : needle <+: text.drop position)
    (le : position ≤ text.length)
    (last : ∀ later, position < later → later ≤ text.length → ¬needle <+: text.drop later) :
    rfind needle text = some position := by
  cases found : rfind needle text with
  | none => exact absurd here (rfind_eq_none found position)
  | some other =>
      congr 1
      rcases Nat.lt_trichotomy other position with lt | same | gt
      · exact absurd here (not_prefix_of_rfind_lt found lt le)
      · exact same
      · exact absurd (rfind_eq_some found).1 (last other gt (rfind_eq_some found).2)

end Find

end FixEngine
