import Mathlib.Tactic
import Mathlib.Data.Nat.Digits.Lemmas

namespace ComputerSystems.Library

/-- The digits are `0` to `9` and then `A` to `Z`. -/
def digitChar (digit : Nat) : UInt8 :=
  if digit < 10 then UInt8.ofNat (48 + digit) else UInt8.ofNat (55 + digit)

def charDigit (char : UInt8) : Nat :=
  if char.toNat < 65 then char.toNat - 48 else char.toNat - 55

/-- The text of a number has its highest digit first. -/
def numeral (radix value : Nat) : List UInt8 :=
  if value = 0 then [digitChar 0] else ((Nat.digits radix value).map digitChar).reverse

def readNumeral (radix : Nat) (text : List UInt8) : Nat :=
  text.foldl (fun total char => total * radix + charDigit char) 0

theorem digitChar_toNat {digit : Nat} (small : digit < 36) :
    (digitChar digit).toNat = if digit < 10 then 48 + digit else 55 + digit := by
  unfold digitChar
  split_ifs with decimal
  · exact Nat.mod_eq_of_lt (by omega)
  · exact Nat.mod_eq_of_lt (by omega)

theorem charDigit_digitChar {digit : Nat} (small : digit < 36) :
    charDigit (digitChar digit) = digit := by
  unfold charDigit
  rw [digitChar_toNat small]
  split_ifs with decimal low low
  · omega
  · omega
  · omega
  · omega

theorem digitChar_ne_zero {digit : Nat} (small : digit < 36) : digitChar digit ≠ 0 := by
  intro zero
  have value := digitChar_toNat small
  rw [zero] at value
  change 0 = _ at value
  split_ifs at value
  · omega
  · omega

theorem readNumeral_append (radix : Nat) (first second : List UInt8) :
    readNumeral radix (first ++ second) =
      second.foldl (fun total char => total * radix + charDigit char)
        (readNumeral radix first) :=
  List.foldl_append

theorem readNumeral_reverse (radix : Nat) (digits : List Nat)
    (small : ∀ digit ∈ digits, digit < 36) :
    readNumeral radix (digits.map digitChar).reverse = Nat.ofDigits radix digits := by
  induction digits with
  | nil => rfl
  | cons digit rest inductionHypothesis =>
      have own := charDigit_digitChar (small digit List.mem_cons_self)
      have others := inductionHypothesis fun other member =>
        small other (List.mem_cons_of_mem digit member)
      rw [List.map_cons, List.reverse_cons, readNumeral_append, others]
      change Nat.ofDigits radix rest * radix + charDigit (digitChar digit) = _
      rw [own, Nat.ofDigits_cons]
      ring

section
variable {radix value : Nat}

theorem digits_lt_36 (two : 2 ≤ radix) (large : radix ≤ 36) :
    ∀ digit ∈ Nat.digits radix value, digit < 36 := by
  intro digit member
  have below := Nat.digits_lt_base two member
  omega

/-- A numeral reads back as its number. -/
theorem readNumeral_numeral (two : 2 ≤ radix) (large : radix ≤ 36) :
    readNumeral radix (numeral radix value) = value := by
  unfold numeral
  split_ifs with zero
  · rw [zero]
    change 0 * radix + charDigit (digitChar 0) = 0
    rw [charDigit_digitChar (by decide), Nat.zero_mul]
  · rw [readNumeral_reverse radix _ (digits_lt_36 two large), Nat.ofDigits_digits]

/-- Every character of a numeral is a digit below the radix. -/
theorem numeral_digit (two : 2 ≤ radix) {char : UInt8} (member : char ∈ numeral radix value) :
    ∃ digit < radix, char = digitChar digit := by
  unfold numeral at member
  split_ifs at member with zero
  · exact ⟨0, by omega, List.mem_singleton.1 member⟩
  · rw [List.mem_reverse] at member
    obtain ⟨digit, inside, rfl⟩ := List.mem_map.1 member
    exact ⟨digit, Nat.digits_lt_base two inside, rfl⟩

theorem numeral_ne_zero (two : 2 ≤ radix) (large : radix ≤ 36) {char : UInt8}
    (member : char ∈ numeral radix value) : char ≠ 0 := by
  obtain ⟨digit, small, rfl⟩ := numeral_digit two member
  exact digitChar_ne_zero (by omega)

/-- Only the numeral of zero starts with a zero. -/
theorem numeral_head (two : 2 ≤ radix) (large : radix ≤ 36)
    (leading : (numeral radix value).head? = some (digitChar 0)) :
    numeral radix value = [digitChar 0] := by
  unfold numeral at leading ⊢
  split_ifs at leading ⊢ with zero
  · rfl
  · exfalso
    have nonempty : Nat.digits radix value ≠ [] := Nat.digits_ne_nil_iff_ne_zero.2 zero
    rw [List.head?_reverse, List.getLast?_map, List.getLast?_eq_some_getLast nonempty] at leading
    have same := Option.some.inj leading
    have last := digits_lt_36 two large _ (List.getLast_mem nonempty)
    have digit := congrArg charDigit same
    rw [charDigit_digitChar last, charDigit_digitChar (by decide)] at digit
    exact Nat.getLast_digit_ne_zero radix zero digit

theorem numeral_length_pos (radix value : Nat) : 0 < (numeral radix value).length := by
  unfold numeral
  split_ifs with zero
  · exact Nat.one_pos
  · rw [List.length_reverse, List.length_map, List.length_pos_iff]
    exact Nat.digits_ne_nil_iff_ne_zero.2 zero

theorem numeral_length_le_iff {bound : Nat} (two : 2 ≤ radix) (positive : 0 < bound) :
    (numeral radix value).length ≤ bound ↔ value < radix ^ bound := by
  unfold numeral
  split_ifs with zero
  · rw [zero]
    exact iff_of_true positive (Nat.pow_pos (by omega))
  · rw [List.length_reverse, List.length_map]
    exact Nat.digits_length_le_iff two value

theorem numeral_length_le {bound : Nat} (two : 2 ≤ radix) (positive : 0 < bound)
    (small : value < radix ^ bound) : (numeral radix value).length ≤ bound :=
  (numeral_length_le_iff two positive).2 small

end

end ComputerSystems.Library
