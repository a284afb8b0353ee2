import Mathlib.Tactic

namespace ComputerSystems.Library

variable {State Fault Value Result Carried : Type}

/-- A program changes a state and gives a value, unless it faults. -/
abbrev Program (State Fault Value : Type) : Type := StateT State (Except Fault) Value

/-- From the state the program ends with a value and a state that meet the postcondition. -/
def Ends (program : Program State Fault Value) (state : State) (post : Value → State → Prop) :
    Prop :=
  ∃ value next, program state = .ok (value, next) ∧ post value next

section
variable {state : State}

theorem Ends.mono {program : Program State Fault Value} {post weaker : Value → State → Prop}
    (ends : Ends program state post) (implied : ∀ value next, post value next → weaker value next) :
    Ends program state weaker := by
  obtain ⟨value, next, ran, holds⟩ := ends
  exact ⟨value, next, ran, implied value next holds⟩

theorem ends_pure {value : Value} {post : Value → State → Prop} (holds : post value state) :
    Ends (pure value : Program State Fault Value) state post :=
  ⟨value, state, rfl, holds⟩

/-- The rest of a program starts where its first part ends. -/
theorem Ends.bind {first : Program State Fault Value} {rest : Value → Program State Fault Result}
    {between : Value → State → Prop} {post : Result → State → Prop}
    (ends : Ends first state between)
    (continued : ∀ value next, between value next → Ends (rest value) next post) :
    Ends (first >>= rest) state post := by
  obtain ⟨value, next, ran, holds⟩ := ends
  obtain ⟨result, final, rested, reached⟩ := continued value next holds
  refine ⟨result, final, ?_, reached⟩
  change Except.bind (first state) (fun pair => rest pair.1 pair.2) = _
  rw [ran]
  exact rested

/-- A loop whose body returns or goes round again. Without fuel it does not end. -/
def loop (endless : Fault) (body : Carried → Program State Fault (Value ⊕ Carried)) :
    Nat → Carried → Program State Fault Value
  | 0, _ => throw endless
  | fuel + 1, carried => do
      match ← body carried with
      | .inl value => return value
      | .inr next => loop endless body fuel next

/-- A loop ends when each round returns a good value, or keeps the invariant and gets smaller. -/
theorem ends_loop {endless : Fault} {body : Carried → Program State Fault (Value ⊕ Carried)}
    {post : Value → State → Prop} (invariant : Carried → State → Prop)
    (size : Carried → State → Nat)
    (round : ∀ carried state, invariant carried state →
      Ends (body carried) state fun outcome next =>
        match outcome with
        | .inl value => post value next
        | .inr after => invariant after next ∧ size after next < size carried state)
    {fuel : Nat} {carried : Carried} (initial : invariant carried state)
    (enough : size carried state < fuel) : Ends (loop endless body fuel carried) state post := by
  induction fuel generalizing carried state with
  | zero => omega
  | succ fuel ih =>
      rw [loop]
      refine (round carried state initial).bind fun outcome next holds => ?_
      cases outcome with
      | inl value => exact ends_pure holds
      | inr after => exact ih holds.1 (by have smaller := holds.2; omega)

end

end ComputerSystems.Library
