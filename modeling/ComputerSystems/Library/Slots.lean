import Mathlib.Tactic
import Mathlib.Data.Fin.Tuple.Basic

namespace ComputerSystems.Library

/-- A table of numbered slots, some of them in use. -/
abbrev Slots (size : Nat) (Value : Type*) : Type _ := Fin size → Option Value

namespace Slots

variable {size : Nat} {Value : Type*} {slots : Slots size Value} {reserved : Nat} {index : Fin size}

/-- The lowest free slot that is not reserved. -/
def lowest (reserved : Nat) (slots : Slots size Value) : Option (Fin size) :=
  Fin.find? fun index => reserved ≤ index.val ∧ (slots index).isNone

/-- A value takes the lowest free slot. -/
def allocate (reserved : Nat) (value : Value) (slots : Slots size Value) :
    Option (Fin size) × Slots size Value :=
  match slots.lowest reserved with
  | none => (none, slots)
  | some index => (some index, Function.update slots index (some value))

def release (index : Fin size) (slots : Slots size Value) : Slots size Value :=
  Function.update slots index none

theorem lowest_free (found : slots.lowest reserved = some index) :
    reserved ≤ index.val ∧ slots index = none := by
  obtain ⟨free, _⟩ := Fin.find?_eq_some_iff.1 found
  rw [decide_eq_true_eq] at free
  exact ⟨free.1, Option.isNone_iff_eq_none.1 free.2⟩

end Slots

end ComputerSystems.Library
