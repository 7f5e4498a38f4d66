import FixEngine.Wire.Encode

/-!
# Bodies that are too long for the placeholder

Ten digits are reserved for the body length. The length of a longer body runs over the delimiter
behind the placeholder and into the body, and what is moved behind it starts with its own last
digits: the message is longer than its body still, but has no BodyLength field.
-/

namespace FixEngine

namespace FactoryScratch

variable {scratch : FactoryScratch} {front body : Bytes}

/-- A body length of more than ten digits overwrites what follows the placeholder. -/
theorem Pending.insertBodyLength_overlong (pending : scratch.Pending front body)
    (overlong : 10 < (decimal body.length).length) :
    scratch.insertBodyLength.Holds (front ++ (decimal body.length ++
      ((decimal body.length).drop 10 ++ body.drop ((decimal body.length).length - 11)))) := by
  have width : (decimal body.length).length ≤ body.length + 1 :=
    length_decimal_le (Nat.succ_pos _) (Nat.lt_trans (Nat.lt_succ_self _)
      (Nat.lt_pow_self (by decide)))
  apply pending.insertBodyLength_moved (by omega)
  rcases pending.cells with ⟨unused, cells⟩
  generalize decimal body.length = digits at *
  have beyond : scratch.buffer.drop (front.length + digits.length) =
      body.drop (digits.length - 11) ++ unused := by
    have split : digits.length = 11 + (digits.length - 11) := by omega
    have eleven : (List.replicate 10 48 ++ (soh :: (body ++ unused))).drop 11 = body ++ unused := by
      simp [List.replicate_succ]
    rw [cells, ← List.drop_drop, List.drop_left, split, ← List.drop_drop, eleven,
      List.drop_append_of_le_length (by omega)]
    simp
  have written : memcpy scratch.buffer front.length digits =
      front ++ (digits ++ (body.drop (digits.length - 11) ++ unused)) := by
    rw [memcpy, beyond, cells, List.take_left, List.append_assoc]
  rw [written, ← List.drop_drop, List.drop_left, List.drop_append_of_le_length (by omega),
    ← List.append_assoc, List.take_left']
  simp only [List.length_append, List.length_drop]
  omega

end FactoryScratch

namespace MessageFactory

variable {factory : MessageFactory} {fields : List Field}

/-- A complete message is not shorter than its body. -/
theorem Building.length_le (building : factory.Building (fieldsText fields)) :
    (fieldsText fields).length ≤ factory.stampTrailer.scratch.getBufferView.length := by
  by_cases fits : (fieldsText fields).length < 10 ^ 10
  · rw [building.stampTrailer fits]
    simp only [wireOf, frontOf, List.length_append]
    omega
  · have overlong : 10 < (decimal (fieldsText fields).length).length := by
      by_contra short
      exact fits (lt_of_length_decimal_le (Nat.not_lt.mp short))
    have complete := (FactoryScratch.Pending.insertBodyLength_overlong building
      overlong).insertChecksum
    rw [MessageFactory.stampTrailer, complete.getBufferView]
    simp only [List.length_append, List.length_drop]
    omega

/-- With eleven digits, the value of BodyLength runs on through the first field of the body. -/
theorem Building.stampTrailer_overlong {first : Field}
    (building : factory.Building (fieldsText (first :: fields)))
    (eleven : (decimal (fieldsText (first :: fields)).length).length = 11) :
    let digits := decimal (fieldsText (first :: fields)).length
    let front : List Field := ⟨8, factory.params.fixVersion⟩ ::
      ⟨9, digits ++ (digits.drop 10 ++ (decimal first.tag ++ equalSign :: first.value))⟩ :: fields
    factory.stampTrailer.scratch.getBufferView =
      fieldsText front ++ fieldText ⟨10, checksumText (byteSum (fieldsText front))⟩ := by
  intro digits front
  have complete := (FactoryScratch.Pending.insertBodyLength_overlong building
    (by omega)).insertChecksum
  have frontText : fieldText ⟨8, factory.params.fixVersion⟩ ++ (decimal 9 ++ [equalSign]) ++
      (digits ++ (digits.drop 10 ++ (fieldsText (first :: fields)).drop (digits.length - 11))) =
        fieldsText front := by
    have none : digits.length - 11 = 0 := by
      rw [eleven]
    rw [none, List.drop_zero]
    simp [front, fieldText]
  rw [frontText] at complete
  rw [MessageFactory.stampTrailer, complete.getBufferView]

end MessageFactory

end FixEngine
