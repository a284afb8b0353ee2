import Mathlib.Tactic

namespace ComputerSystems.Library

/-- The test of one bit with its mask. -/
theorem and_twoPow_eq_iff {width : Nat} (word : BitVec width) {bit : Nat} (inside : bit < width) :
    word &&& BitVec.twoPow width bit = BitVec.twoPow width bit ↔ word.getLsbD bit = true := by
  rw [BitVec.and_twoPow]
  by_cases set : word.getLsbD bit = true
  · simp [set]
  · rw [if_neg set]
    refine iff_of_false (fun zero => ?_) set
    have clear := congrArg (fun word => word.getLsbD bit) zero
    simp [inside] at clear

end ComputerSystems.Library
