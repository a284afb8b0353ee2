import Mathlib.Data.List.GetD
import Mathlib.Tactic

namespace ComputerSystems.Library

/-- A field of limited width holds the values before the first one that stops it. -/
def field {Value : Type*} (stop : Value → Bool) (memory : Nat → Value) : Nat → Nat → List Value
  | 0, _ => []
  | width + 1, start =>
      if stop (memory start) then [] else memory start :: field stop memory width (start + 1)

section
variable {Value : Type*} {stop : Value → Bool} {memory : Nat → Value}

theorem field_length_le (width start : Nat) : (field stop memory width start).length ≤ width := by
  induction width generalizing start with
  | zero => exact Nat.le_refl 0
  | succ width ih =>
      rw [field]
      split
      · exact Nat.zero_le _
      · exact Nat.succ_le_succ (ih (start + 1))

theorem field_getElem? (width start index : Nat)
    (inside : index < (field stop memory width start).length) :
    (field stop memory width start)[index]? = some (memory (start + index)) := by
  induction width generalizing start index with
  | zero => exact absurd inside (Nat.not_lt_zero index)
  | succ width ih =>
      rw [field] at inside ⊢
      split at inside
      · exact absurd inside (Nat.not_lt_zero index)
      · next running =>
        rw [if_neg running]
        cases index with
        | zero => rfl
        | succ index =>
            rw [List.getElem?_cons_succ, ih (start + 1) index (Nat.lt_of_succ_lt_succ inside)]
            congr 2
            omega

theorem field_running {width start : Nat} {value : Value}
    (member : value ∈ field stop memory width start) : stop value = false := by
  induction width generalizing start with
  | zero => exact absurd member List.not_mem_nil
  | succ width ih =>
      rw [field] at member
      split at member
      · exact absurd member List.not_mem_nil
      · next running =>
        rcases List.mem_cons.1 member with rfl | later
        · simpa using running
        · exact ih later

/-- The length of a field is the first place that stops it, or its width. -/
theorem field_length_eq {width start size : Nat} (short : size ≤ width)
    (running : ∀ index < size, stop (memory (start + index)) = false)
    (stopped : size < width → stop (memory (start + size)) = true) :
    (field stop memory width start).length = size := by
  induction size generalizing width start with
  | zero =>
      cases width with
      | zero => rfl
      | succ width =>
          have first := stopped (Nat.succ_pos width)
          rw [Nat.add_zero] at first
          rw [field, if_pos first]
          rfl
  | succ size ih =>
      obtain ⟨width, rfl⟩ : ∃ rest, width = rest + 1 := ⟨width - 1, by omega⟩
      have first := running 0 (Nat.succ_pos size)
      rw [Nat.add_zero] at first
      rw [field, first]
      change (field stop memory width (start + 1)).length + 1 = size + 1
      rw [ih (by omega)]
      · intro index inside
        have next := running (index + 1) (Nat.succ_lt_succ inside)
        rwa [show start + (index + 1) = start + 1 + index by omega] at next
      · intro inside
        have next := stopped (Nat.succ_lt_succ inside)
        rwa [show start + (size + 1) = start + 1 + size by omega] at next

/-- A field is the one list that fits in it, agrees with the memory, and ends at a stop. -/
theorem field_eq {width start : Nat} {values : List Value} (short : values.length ≤ width)
    (running : ∀ value ∈ values, stop value = false)
    (agrees : ∀ index < values.length, values[index]? = some (memory (start + index)))
    (stopped : values.length < width → stop (memory (start + values.length)) = true) :
    field stop memory width start = values := by
  have size : (field stop memory width start).length = values.length := by
    apply field_length_eq short _ stopped
    intro index inside
    have agree := agrees index inside
    rw [List.getElem?_eq_getElem inside, Option.some_inj] at agree
    rw [← agree]
    exact running _ (List.getElem_mem inside)
  apply List.ext_getElem?
  intro index
  by_cases inside : index < values.length
  · rw [agrees index inside, field_getElem? width start index (by omega)]
  · rw [List.getElem?_eq_none (by omega), List.getElem?_eq_none (by omega)]

/-- The values of a range before the first stop are the field. -/
theorem takeWhile_range' (width start : Nat) :
    ((List.range' start width).map memory).takeWhile (fun value => !stop value) =
      field stop memory width start := by
  induction width generalizing start with
  | zero => rfl
  | succ width ih =>
      rw [List.range'_succ, List.map_cons, List.takeWhile_cons, ih, field]
      cases stop (memory start) <;> rfl

/-- A field of a list that ends with a stop is a prefix of it. -/
theorem field_getD (values : List Value) (blank : Value) (stops : stop blank = true)
    (running : ∀ value ∈ values, stop value = false) (width start : Nat) :
    field stop (fun index => values.getD index blank) width start =
      (values.drop start).take width := by
  induction width generalizing start with
  | zero => rw [field, List.take_zero]
  | succ width ih =>
      rw [field]
      by_cases inside : start < values.length
      · rw [List.getD_eq_getElem _ _ inside, if_neg (by
          rw [running _ (List.getElem_mem inside)]
          exact Bool.false_ne_true), ih, List.drop_eq_getElem_cons inside, List.take_succ_cons]
      · rw [List.getD_eq_default _ _ (Nat.le_of_not_lt inside), if_pos stops,
          List.drop_eq_nil_of_le (Nat.le_of_not_lt inside), List.take_nil]

end

end ComputerSystems.Library
