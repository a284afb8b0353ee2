import Mathlib.Tactic

namespace ComputerSystems.Library
variable {Call : Type*} {calls : List Call} {index : Nat} {call : Call}

/-- The calls in progress after one of them takes a step. The call goes on as the next one, or it
ends. -/
def replaceCall (calls : List Call) (index : Nat) (next : Option Call) : List Call :=
  calls.take index ++ next.toList ++ calls.drop (index + 1)

theorem calls_split (found : calls[index]? = some call) :
    calls = calls.take index ++ call :: calls.drop (index + 1) := by
  obtain ⟨inside, rfl⟩ := List.getElem?_eq_some_iff.1 found
  rw [List.getElem_cons_drop, List.take_append_drop]

theorem mem_of_count_le [DecidableEq Call] {later : List Call} (call : Call)
    (fewer : later.count call ≤ calls.count call) (member : call ∈ later) : call ∈ calls := by
  rw [← List.count_pos_iff] at member ⊢
  exact member.trans_le fewer

/-- A step of a call changes the number of equal calls by the call and the next one. -/
theorem count_replaceCall [DecidableEq Call] (found : calls[index]? = some call)
    (next : Option Call) (other : Call) :
    (replaceCall calls index next).count other + [call].count other =
      calls.count other + next.toList.count other := by
  have whole := congrArg (List.count other) (calls_split found)
  rw [List.count_append, List.count_cons] at whole
  rw [replaceCall, List.count_append, List.count_append, List.count_singleton]
  omega

end ComputerSystems.Library
