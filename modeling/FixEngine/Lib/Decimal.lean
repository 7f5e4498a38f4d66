import FixEngine.Lib.Bytes
import Mathlib.Data.Nat.Digits.Lemmas
import Mathlib.Data.List.TakeWhile

/-!
# Decimal text

`std::to_chars` and `std::from_chars` in base ten. `fromChars` reads the longest run of digits
at the start of a text into an unsigned integer of a given width; it reports how far it read,
and no value when there was no digit or the number does not fit. `CharsResult.whole` is the
check callers make: no error, and the whole text read.
-/

namespace FixEngine

/-- The digits, `0` to `9`. -/
def isDigit (b : UInt8) : Bool := 48 ≤ b && b ≤ 57

/-- The value of a text of decimal digits. -/
def digitsValue (text : Bytes) : ℕ := text.foldl (fun value b => 10 * value + (b.toNat - 48)) 0

/-- The decimal text of a natural number, without leading zeros. -/
def decimal (n : ℕ) : Bytes :=
  if n = 0 then [48] else (Nat.digits 10 n).reverse.map fun d => UInt8.ofNat (48 + d)

/-- `std::to_chars` of a signed number. -/
def toChars : ℤ → Bytes
  | .ofNat n => decimal n
  | .negSucc n => 45 :: decimal (n + 1)

/-- What `std::from_chars` returns: the number of bytes matched, and the value unless the
error code is set. -/
structure CharsResult (α : Type) where
  ptr : ℕ
  value : Option α
  deriving DecidableEq, Repr

/-- The value, when there was no error and the whole of `text` was matched. -/
def CharsResult.whole {α : Type} (result : CharsResult α) (text : Bytes) : Option α :=
  if result.ptr = text.length then result.value else none

/-- `std::from_chars` into an unsigned integer of `bits` bits. -/
def fromChars (bits : ℕ) (text : Bytes) : CharsResult ℕ :=
  let digits := text.takeWhile isDigit
  if digits = [] then ⟨0, none⟩
  else if digitsValue digits < 2 ^ bits then ⟨digits.length, some (digitsValue digits)⟩
  else ⟨digits.length, none⟩

/-- `std::from_chars` into a signed integer of `bits` bits. -/
def fromCharsSigned (bits : ℕ) (text : Bytes) : CharsResult ℤ :=
  match text with
  | 45 :: rest =>
      let digits := rest.takeWhile isDigit
      if digits = [] then ⟨0, none⟩
      else if digitsValue digits ≤ 2 ^ (bits - 1) then
        ⟨digits.length + 1, some (-(digitsValue digits : ℤ))⟩
      else ⟨digits.length + 1, none⟩
  | _ =>
      let digits := text.takeWhile isDigit
      if digits = [] then ⟨0, none⟩
      else if digitsValue digits < 2 ^ (bits - 1) then
        ⟨digits.length, some (digitsValue digits : ℤ)⟩
      else ⟨digits.length, none⟩

theorem isDigit_iff {b : UInt8} : isDigit b = true ↔ 48 ≤ b.toNat ∧ b.toNat ≤ 57 := by
  simp [isDigit, UInt8.le_iff_toNat_le]

theorem isDigit_ofNat {d : ℕ} (lt : d < 10) : isDigit (UInt8.ofNat (48 + d)) = true := by
  rw [isDigit_iff, UInt8.toNat_ofNat_of_lt' (show 48 + d < UInt8.size by have := show UInt8.size = 256 from rfl; omega)]
  omega

section Decimal

theorem decimal_ne_nil (n : ℕ) : decimal n ≠ [] := by
  by_cases zero : n = 0
  · simp [decimal, zero]
  · simp [decimal, zero, Nat.digits_ne_nil_iff_ne_zero.mpr zero]

theorem isDigit_of_mem_decimal {n : ℕ} {b : UInt8} (mem : b ∈ decimal n) : isDigit b = true := by
  by_cases zero : n = 0
  · simp only [decimal, zero, if_true, List.mem_singleton] at mem
    subst mem
    decide
  · simp only [decimal, zero, if_false, List.mem_map, List.mem_reverse] at mem
    obtain ⟨d, memDigits, rfl⟩ := mem
    exact isDigit_ofNat (Nat.digits_lt_base (by omega) memDigits)

/-- The digit fold over mapped digits is `Nat.ofDigits` of the digits, most significant first. -/
theorem digitsValue_map_reverse {digits : List ℕ} (small : ∀ d ∈ digits, d < 10) :
    digitsValue (digits.reverse.map fun d => UInt8.ofNat (48 + d)) = Nat.ofDigits 10 digits := by
  induction digits with
  | nil => rfl
  | cons d rest ih =>
      have dLt : d < 10 := small d (by simp)
      have ihRest := ih fun x mem => small x (by simp [mem])
      simp only [List.reverse_cons, List.map_append, List.map_cons, List.map_nil, digitsValue,
        List.foldl_append, List.foldl_cons, List.foldl_nil, Nat.ofDigits_cons]
      simp only [digitsValue] at ihRest
      rw [ihRest, UInt8.toNat_ofNat_of_lt' (show 48 + d < UInt8.size by have := show UInt8.size = 256 from rfl; omega)]
      omega

@[simp]
theorem digitsValue_decimal (n : ℕ) : digitsValue (decimal n) = n := by
  by_cases zero : n = 0
  · simp [decimal, zero, digitsValue]
  · simp only [decimal, zero, if_false]
    rw [digitsValue_map_reverse fun d mem => Nat.digits_lt_base (by omega) mem,
      Nat.ofDigits_digits]

theorem decimal_injective : Function.Injective decimal := fun a b same => by
  simpa using congrArg digitsValue same

theorem length_decimal_le {n k : ℕ} (pos : 0 < k) (lt : n < 10 ^ k) : (decimal n).length ≤ k := by
  by_cases zero : n = 0
  · simpa [decimal, zero] using Nat.succ_le_of_lt pos
  · simpa [decimal, zero] using (Nat.digits_length_le_iff (by omega) n).mpr lt

theorem lt_of_length_decimal_le {n k : ℕ} (le : (decimal n).length ≤ k) : n < 10 ^ k := by
  by_cases zero : n = 0
  · subst zero; positivity
  · simp only [decimal, zero, if_false, List.length_map, List.length_reverse] at le
    exact (Nat.digits_length_le_iff (by omega) n).mp le

@[simp]
theorem takeWhile_isDigit_decimal (n : ℕ) : (decimal n).takeWhile isDigit = decimal n :=
  List.takeWhile_eq_self_iff.mpr fun _ mem => isDigit_of_mem_decimal mem

theorem fromChars_decimal {bits n : ℕ} (fits : n < 2 ^ bits) :
    fromChars bits (decimal n) = ⟨(decimal n).length, some n⟩ := by
  simp [fromChars, decimal_ne_nil, fits]

theorem fromChars_lt {bits value : ℕ} {text : Bytes}
    (read : (fromChars bits text).value = some value) : value < 2 ^ bits := by
  rw [fromChars] at read
  split at read
  · simp at read
  · split at read
    · next fits =>
        simp only [Option.some.injEq] at read
        omega
    · simp at read

theorem toChars_natCast (n : ℕ) : toChars (n : ℤ) = decimal n := rfl

theorem toChars_ne_nil (n : ℤ) : toChars n ≠ [] := by
  cases n with
  | ofNat n => exact decimal_ne_nil n
  | negSucc n => simp [toChars]

/-- A byte that is neither a digit nor the minus sign does not occur in a printed number. -/
theorem not_mem_toChars {n : ℤ} {b : UInt8} (notDigit : isDigit b = false) (notMinus : b ≠ 45) :
    b ∉ toChars n := by
  intro mem
  cases n with
  | ofNat n => simp [isDigit_of_mem_decimal mem] at notDigit
  | negSucc n =>
      rcases List.mem_cons.mp mem with isMinus | mem
      · exact notMinus isMinus
      · simp [isDigit_of_mem_decimal mem] at notDigit

end Decimal

/-- A number of `k` digits is below `10 ^ k`. -/
theorem digitsValue_lt {text : Bytes} (digits : ∀ b ∈ text, isDigit b = true) :
    digitsValue text < 10 ^ text.length := by
  induction text using List.reverseRecOn with
  | nil => simp [digitsValue]
  | append_singleton front last ih =>
      have front_lt := ih fun b mem => digits b (by simp [mem])
      have last_digit := isDigit_iff.mp (digits last (by simp))
      simp only [digitsValue, List.foldl_append, List.foldl_cons, List.foldl_nil,
        List.length_append, List.length_singleton, pow_succ] at front_lt ⊢
      omega

section FromChars

variable {bits : ℕ} {text : Bytes}

theorem takeWhile_isDigit_eq_self (digits : ∀ b ∈ text, isDigit b = true) :
    text.takeWhile isDigit = text :=
  List.takeWhile_eq_self_iff.mpr digits

/-- The check `ec == std::errc{} && ptr == end` accepts the non-empty digit texts in range. -/
theorem whole_fromChars_eq_some {value : ℕ} :
    (fromChars bits text).whole text = some value ↔
      text ≠ [] ∧ (∀ b ∈ text, isDigit b = true) ∧ digitsValue text < 2 ^ bits ∧
        digitsValue text = value := by
  constructor
  · intro accepted
    by_cases noDigits : text.takeWhile isDigit = []
    · by_cases empty : text = []
      · subst empty
        simp [fromChars, CharsResult.whole] at accepted
      · simp [fromChars, CharsResult.whole, noDigits] at accepted
    · by_cases fits : digitsValue (text.takeWhile isDigit) < 2 ^ bits
      · simp only [fromChars, CharsResult.whole, noDigits, if_false, fits, if_true] at accepted
        split at accepted
        · next same =>
            have whole : text.takeWhile isDigit = text :=
              (List.takeWhile_prefix isDigit).eq_of_length same
            rw [whole] at fits accepted noDigits
            exact ⟨noDigits, List.takeWhile_eq_self_iff.mp whole, fits, by simpa using accepted⟩
        · cases accepted
      · simp [fromChars, CharsResult.whole, noDigits, fits] at accepted
  · rintro ⟨nonempty, digits, fits, rfl⟩
    simp [fromChars, CharsResult.whole, takeWhile_isDigit_eq_self digits, nonempty, fits]

theorem value_of_whole {number : ℕ} (read : (fromChars bits text).whole text = some number) :
    (fromChars bits text).value = some number := by
  rw [CharsResult.whole] at read
  split at read
  · exact read
  · cases read

@[simp]
theorem whole_fromChars_decimal {n : ℕ} (fits : n < 2 ^ bits) :
    (fromChars bits (decimal n)).whole (decimal n) = some n := by
  simp [fromChars_decimal fits, CharsResult.whole]

end FromChars

end FixEngine
