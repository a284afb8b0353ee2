import ComputerSystems.Library.Run

namespace ComputerSystems.Library

variable {State Event Stop : Type*}

/-- Some run of allowed events leads to a goal. -/
def Leads (step : State → Event → Except Stop State) (allowed : Event → Prop)
    (goal : State → Prop) (state : State) : Prop :=
  ∃ events final, (∀ event ∈ events, allowed event) ∧ run step state events = .ok final ∧ goal final

namespace Leads

variable {step : State → Event → Except Stop State} {allowed : Event → Prop}
variable {goal between : State → Prop} {state next : State} {event : Event}

theorem here (reached : goal state) : Leads step allowed goal state :=
  ⟨[], state, fun _ member => absurd member List.not_mem_nil, rfl, reached⟩

/-- One step towards a goal. -/
theorem step_then (permitted : allowed event) (stepped : step state event = .ok next)
    (leads : Leads step allowed goal next) : Leads step allowed goal state := by
  obtain ⟨events, final, all, reached, last⟩ := leads
  refine ⟨event :: events, final, fun other member => ?_, ?_, last⟩
  · rcases List.mem_cons.1 member with rfl | later
    · exact permitted
    · exact all other later
  · rw [run_cons step state next event events stepped]
    exact reached

/-- A goal may be reached in two parts. -/
theorem bind (first : Leads step allowed between state)
    (rest : ∀ middle, between middle → Leads step allowed goal middle) :
    Leads step allowed goal state := by
  obtain ⟨events, middle, all, reached, met⟩ := first
  obtain ⟨more, final, others, ended, last⟩ := rest middle met
  refine ⟨events ++ more, final, fun event member => ?_, ?_, last⟩
  · exact (List.mem_append.1 member).elim (all event) (others event)
  · rw [run_append, reached]
    exact ended

theorem mono (leads : Leads step allowed between state)
    (weaker : ∀ final, between final → goal final) : Leads step allowed goal state :=
  leads.bind fun middle met => here (weaker middle met)

/-- A goal is reached when some steps always lead to it or lower a rank. -/
theorem of_rank (invariant : State → Prop) (rank : State → Nat)
    (progress : ∀ state, invariant state → Leads step allowed
      (fun next => goal next ∨ invariant next ∧ rank next < rank state) state)
    (initial : invariant state) : Leads step allowed goal state := by
  generalize bound : rank state = value
  induction value using Nat.strongRecOn generalizing state with
  | ind value ih =>
      refine (progress state initial).bind fun middle met => ?_
      rcases met with reached | ⟨kept, lower⟩
      · exact here reached
      · exact ih (rank middle) (bound ▸ lower) kept rfl

end Leads

end ComputerSystems.Library
