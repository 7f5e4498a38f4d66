import FixEngine.Core.Framer

/-!
# The one-shot reference scan

`frames` says what the frames of a complete byte string are, without buffers, offsets or
chunks: search the begin string, decide on the header that follows it, cut the frame or resume
one byte later, and stop at the first decision whose bytes are not all present.

The facts here are about text that arrives later: a decision that was made stays, the frames of
a prefix of the stream are a prefix of its frames, and text in which no begin string starts can
be dropped.
-/

namespace FixEngine

/-- What the scan decides on a text that starts with the begin string. -/
inductive HeaderDecision
  | wait
  | resync
  | emit (stop : ℕ)
  deriving DecidableEq, Repr

namespace Reference

open Framer (fixFirstField maxMessageSize trailerSize)

/-- A non-empty number of decimal digits, at most the maximal message size. -/
def acceptableLength (text : Bytes) : Bool :=
  text ≠ [] && text.all isDigit && decide (digitsValue text ≤ maxMessageSize)

/-- The length of a frame whose body length field holds `digits`. -/
def frameLength (digits : Bytes) : ℕ :=
  fixFirstField.length + 2 + digits.length + 1 + digitsValue digits + trailerSize

/-- The decision on a text that starts with the begin string. -/
def headerDecision (text : Bytes) : HeaderDecision :=
  let rest := text.drop fixFirstField.length
  if rest.length < 2 then .wait
  else if rest.take 2 ≠ ascii "9=" then .resync
  else
    match cut soh (rest.drop 2) with
    | none => .wait
    | some (digits, _) =>
        if acceptableLength digits then
          if text.length < frameLength digits then .wait else .emit (frameLength digits)
        else .resync

/-- The scan, with a bound on its steps. -/
def framesWithin : ℕ → Bytes → List Bytes
  | 0, _ => []
  | steps + 1, text =>
      match find fixFirstField text with
      | none => []
      | some distance =>
          let message := text.drop distance
          match headerDecision message with
          | .wait => []
          | .resync => framesWithin steps (message.drop 1)
          | .emit stop => message.take stop :: framesWithin steps (message.drop stop)

/-- The frames of a byte string. -/
def frames (text : Bytes) : List Bytes := framesWithin (text.length + 1) text

theorem length_fixFirstField : fixFirstField.length = 10 := by decide

section Decision

variable {text : Bytes}

theorem stop_pos {stop : ℕ} (emits : headerDecision text = .emit stop) :
    17 ≤ stop ∧ stop ≤ text.length := by
  simp only [headerDecision] at emits
  split at emits
  · cases emits
  · split at emits
    · cases emits
    · split at emits
      · cases emits
      · split at emits
        · split at emits
          · cases emits
          · next enough =>
              simp only [HeaderDecision.emit.injEq] at emits
              simp only [frameLength, length_fixFirstField, trailerSize] at emits enough
              omega
        · cases emits

/-- A decision to resync or to emit is not revised when more text arrives. -/
theorem headerDecision_append (later : Bytes) (decided : headerDecision text ≠ .wait) :
    headerDecision (text ++ later) = headerDecision text := by
  by_cases short : (text.drop fixFirstField.length).length < 2
  · exact absurd (by simp only [headerDecision, short, if_true]) decided
  have fits : fixFirstField.length ≤ text.length := by
    simp only [List.length_drop] at short
    omega
  have dropEq : (text ++ later).drop fixFirstField.length =
      text.drop fixFirstField.length ++ later := List.drop_append_of_le_length fits
  have stillLong : ¬(text.drop fixFirstField.length ++ later).length < 2 := by
    simp only [List.length_append]
    omega
  have takeEq : (text.drop fixFirstField.length ++ later).take 2 =
      (text.drop fixFirstField.length).take 2 := List.take_append_of_le_length (by omega)
  have dropTwo : (text.drop fixFirstField.length ++ later).drop 2 =
      (text.drop fixFirstField.length).drop 2 ++ later :=
    List.drop_append_of_le_length (by omega)
  simp only [headerDecision, dropEq, short, stillLong, if_false, takeEq, dropTwo] at decided ⊢
  split
  · rfl
  · next isNine =>
      simp only [isNine, if_false] at decided
      cases found : cut soh ((text.drop fixFirstField.length).drop 2) with
      | none => exact absurd (by simp only [found]) decided
      | some parts =>
          obtain ⟨digits, after⟩ := parts
          simp only [cut_append_of_some later found, found] at decided ⊢
          split
          · next acceptable =>
              simp only [acceptable, if_true] at decided
              split at decided
              · exact absurd rfl decided
              · next enough =>
                  rw [if_neg enough, if_neg (by simp only [List.length_append]; omega)]
          · rfl

/-- Once the body length has been read, only the number of bytes present matters. -/
theorem headerDecision_of_header {digits after : Bytes}
    (header : text.drop fixFirstField.length = ascii "9=" ++ (digits ++ soh :: after))
    (noDelimiter : soh ∉ digits) (acceptable : acceptableLength digits = true) :
    headerDecision text =
      if text.length < frameLength digits then .wait else .emit (frameLength digits) := by
  have two : (ascii "9=").length = 2 := by decide
  have long : ¬(text.drop fixFirstField.length).length < 2 := by
    rw [header]
    simp only [List.length_append]
    omega
  have nine : (text.drop fixFirstField.length).take 2 = ascii "9=" := by
    rw [header, ← two, List.take_left]
  have rest : (text.drop fixFirstField.length).drop 2 = digits ++ soh :: after := by
    rw [header, ← two, List.drop_left]
  simp only [headerDecision, long, if_false, nine, rest, cut_append after noDelimiter,
    acceptable, if_true, ne_eq, not_true_eq_false]

end Decision

section Frames

theorem framesWithin_eq {steps : ℕ} {text : Bytes} (enough : text.length < steps) :
    framesWithin steps text = frames text := by
  suffices both : ∀ n m (text : Bytes), text.length < n → text.length < m →
      framesWithin n text = framesWithin m text from both _ _ text enough (Nat.lt_succ_self _)
  intro n
  induction n with
  | zero => omega
  | succ n ih =>
      intro m text ltN ltM
      obtain ⟨m, rfl⟩ : ∃ k, m = k + 1 := ⟨m - 1, by omega⟩
      simp only [framesWithin]
      cases found : find fixFirstField text with
      | none => rfl
      | some distance =>
          have here := (find_eq_some found).1.length_le
          rw [length_fixFirstField, List.length_drop] at here
          simp only
          cases decision : headerDecision (text.drop distance) with
          | wait => rfl
          | resync =>
              apply ih m <;> simp only [List.length_drop] <;> omega
          | emit stop =>
              have := stop_pos decision
              simp only [List.length_drop] at this
              refine congrArg (_ :: ·) ?_
              apply ih m <;> simp only [List.length_drop] <;> omega

theorem frames_of_find_none {text : Bytes} (absent : find fixFirstField text = none) :
    frames text = [] := by
  simp [frames, framesWithin, absent]

/-- One step of the scan at the first begin string. -/
theorem frames_of_find_some {text : Bytes} {distance : ℕ}
    (found : find fixFirstField text = some distance) :
    frames text =
      match headerDecision (text.drop distance) with
      | .wait => []
      | .resync => frames (text.drop (distance + 1))
      | .emit stop => (text.drop distance).take stop :: frames (text.drop (distance + stop)) := by
  have here := (find_eq_some found).1.length_le
  rw [length_fixFirstField, List.length_drop] at here
  conv_lhs => rw [frames]
  simp only [framesWithin, found]
  cases decision : headerDecision (text.drop distance) with
  | wait => rfl
  | resync =>
      simp only [List.drop_drop]
      exact framesWithin_eq (by simp; omega)
  | emit stop =>
      have := stop_pos decision
      simp only [List.length_drop] at this
      simp only [List.drop_drop]
      rw [framesWithin_eq (by simp; omega)]

/-- One step of the scan on a text that starts with the begin string. -/
theorem frames_of_starts {text : Bytes} (starts : fixFirstField <+: text) :
    frames text =
      match headerDecision text with
      | .wait => []
      | .resync => frames (text.drop 1)
      | .emit stop => text.take stop :: frames (text.drop stop) := by
  have found : find fixFirstField text = some 0 :=
    find_eq_of_first (by simpa using starts) (by omega)
  simpa using frames_of_find_some found

/-- Text in which no begin string starts can be dropped. -/
theorem frames_drop (text : Bytes) (count : ℕ)
    (absent : ∀ position < count, ¬fixFirstField <+: text.drop position) :
    frames (text.drop count) = frames text := by
  cases found : find fixFirstField (text.drop count) with
  | none =>
      have none : find fixFirstField text = none := by
        cases again : find fixFirstField text with
        | none => rfl
        | some position =>
            exfalso
            have here := (find_eq_some again).1
            rcases Nat.lt_or_ge position count with lt | ge
            · exact absent position lt here
            · have := find_eq_none found (position - count)
              rw [List.drop_drop, Nat.add_sub_cancel' ge] at this
              exact this here
      rw [frames_of_find_none found, frames_of_find_none none]
  | some distance =>
      have here := find_eq_some found
      rw [List.drop_drop] at here
      have again : find fixFirstField text = some (count + distance) := by
        refine find_eq_of_first here.1 fun earlier lt occurs => ?_
        rcases Nat.lt_or_ge earlier count with ltCount | ge
        · exact absent earlier ltCount occurs
        · have := @not_prefix_of_lt_find _ _ _ (earlier - count) found (by omega)
          rw [List.drop_drop, Nat.add_sub_cancel' ge] at this
          exact this occurs
      rw [frames_of_find_some found, frames_of_find_some again]
      simp only [List.drop_drop, Nat.add_assoc]

/-- Whether a text of known length occurs at a position inside `text` does not depend on what
follows. -/
theorem prefix_drop_append_iff {needle text later : Bytes} {position : ℕ}
    (inside : position + needle.length ≤ text.length) :
    needle <+: (text ++ later).drop position ↔ needle <+: text.drop position := by
  rw [List.drop_append_of_le_length (by omega)]
  constructor
  · intro occurs
    exact List.prefix_of_prefix_length_le occurs (List.prefix_append _ _)
      (by simp only [List.length_drop]; omega)
  · intro occurs
    exact occurs.trans (List.prefix_append _ _)

/-- What the scan found is found again when more text arrives. -/
theorem find_append {text : Bytes} {distance : ℕ} (later : Bytes)
    (found : find fixFirstField text = some distance) :
    find fixFirstField (text ++ later) = some distance := by
  have here := find_eq_some found
  have inside := here.1.length_le
  rw [length_fixFirstField, List.length_drop] at inside
  refine find_eq_of_first ?_ fun earlier lt occurs => ?_
  · rw [prefix_drop_append_iff (by rw [length_fixFirstField]; omega)]
    exact here.1
  · rw [prefix_drop_append_iff (by rw [length_fixFirstField]; omega)] at occurs
    exact not_prefix_of_lt_find found lt occurs

/-- Nothing but the last nine bytes of a text without begin string can be part of one. -/
theorem not_prefix_of_find_none {text : Bytes} (later : Bytes)
    (absent : find fixFirstField text = none) {position : ℕ}
    (inside : position + 10 ≤ text.length) :
    ¬fixFirstField <+: (text ++ later).drop position := by
  rw [prefix_drop_append_iff (by rw [length_fixFirstField]; omega)]
  exact find_eq_none absent position

/-- The frames of a prefix of the stream are a prefix of its frames. -/
theorem frames_prefix (text later : Bytes) : frames text <+: frames (text ++ later) := by
  induction size : text.length using Nat.strong_induction_on generalizing text with
  | _ n ih =>
      cases found : find fixFirstField text with
      | none => simp [frames_of_find_none found]
      | some distance =>
          have here := find_eq_some found
          have inside := here.1.length_le
          rw [length_fixFirstField, List.length_drop] at inside
          have dropEq : (text ++ later).drop distance = text.drop distance ++ later :=
            List.drop_append_of_le_length here.2
          rw [frames_of_find_some found, frames_of_find_some (find_append later found), dropEq]
          cases decision : headerDecision (text.drop distance) with
          | wait => simp
          | resync =>
              rw [headerDecision_append later (by simp [decision]), decision]
              simp only
              rw [List.drop_append_of_le_length (by omega)]
              exact ih _ (by simp; omega) _ rfl
          | emit stop =>
              have stopLe := stop_pos decision
              simp only [List.length_drop] at stopLe
              rw [headerDecision_append later (by simp [decision]), decision]
              simp only
              rw [List.take_append_of_le_length (by simp; omega),
                List.drop_append_of_le_length (by omega)]
              exact List.cons_prefix_cons.mpr ⟨rfl, ih _ (by simp; omega) _ rfl⟩

/-- A decision to emit has read an acceptable body length. -/
theorem header_of_emit {text : Bytes} {stop : ℕ} (emits : headerDecision text = .emit stop) :
    ∃ digits after, text.drop fixFirstField.length = ascii "9=" ++ (digits ++ soh :: after) ∧
      soh ∉ digits ∧ acceptableLength digits = true ∧ stop = frameLength digits := by
  simp only [headerDecision] at emits
  split at emits
  · cases emits
  split at emits
  · cases emits
  next nine =>
  split at emits
  · cases emits
  next digits after found =>
  split at emits
  · next acceptable =>
      split at emits
      · cases emits
      · obtain ⟨restEq, absent⟩ := cut_eq_some.mp found
        refine ⟨digits, after, ?_, absent, acceptable, by simpa using emits.symm⟩
        rw [← restEq, ← not_not.mp nine, List.take_append_drop]
  · cases emits

/-- A frame: the begin string, a body length, and as many bytes as it announces. -/
structure IsFrame (frame : Bytes) : Prop where
  header : ∃ digits rest, frame = fixFirstField ++ (ascii "9=" ++ (digits ++ soh :: rest)) ∧
    soh ∉ digits ∧ acceptableLength digits = true ∧
    rest.length = digitsValue digits + trailerSize

theorem isFrame_of_emit {text : Bytes} {stop : ℕ} (starts : fixFirstField <+: text)
    (emits : headerDecision text = .emit stop) : IsFrame (text.take stop) := by
  obtain ⟨digits, after, header, absent, acceptable, stopEq⟩ := header_of_emit emits
  obtain ⟨rest, rfl⟩ := starts
  have stopLe := (stop_pos emits).2
  rw [List.drop_left] at header
  have two : (ascii "9=").length = 2 := by decide
  subst header
  have split : fixFirstField ++ (ascii "9=" ++ (digits ++ soh :: after)) =
      (fixFirstField ++ (ascii "9=" ++ (digits ++ [soh]))) ++ after := by simp
  have prefixLen : (fixFirstField ++ (ascii "9=" ++ (digits ++ [soh]))).length =
      fixFirstField.length + 2 + digits.length + 1 := by
    simp only [List.length_append, two, List.length_singleton]
    omega
  rw [split, List.length_append, prefixLen] at stopLe
  refine ⟨⟨digits, after.take (digitsValue digits + trailerSize), ?_, absent, acceptable, ?_⟩⟩
  · rw [split, stopEq, frameLength, Nat.add_assoc _ (digitsValue digits), ← prefixLen,
      List.take_length_add_append]
    simp
  · rw [List.length_take]
    simp only [frameLength] at stopEq
    omega

/-- Every frame of a byte string is one. -/
theorem isFrame_of_mem_frames {text frame : Bytes} (mem : frame ∈ frames text) :
    IsFrame frame := by
  induction size : text.length using Nat.strong_induction_on generalizing text with
  | _ n ih =>
      cases found : find fixFirstField text with
      | none => simp [frames_of_find_none found] at mem
      | some distance =>
          have here := find_eq_some found
          have inside := here.1.length_le
          rw [length_fixFirstField, List.length_drop] at inside
          rw [frames_of_find_some found] at mem
          cases decision : headerDecision (text.drop distance) with
          | wait => simp [decision] at mem
          | resync =>
              simp only [decision] at mem
              exact ih _ (by simp only [List.length_drop]; omega) mem rfl
          | emit stop =>
              have stopLe := stop_pos decision
              simp only [decision] at mem
              rcases List.mem_cons.mp mem with rfl | mem
              · exact isFrame_of_emit here.1 decision
              · exact ih _ (by simp only [List.length_drop]; omega) mem rfl

end Frames

end Reference

end FixEngine
