import Mathlib.Tactic

namespace ComputerSystems.Library

/-- The sizes of index types whose indices are written as numbers. -/
instance three_neZero : NeZero 3 := ⟨by decide⟩
instance eight_neZero : NeZero 8 := ⟨by decide⟩
instance twentyFive_neZero : NeZero 25 := ⟨by decide⟩
instance eighty_neZero : NeZero 80 := ⟨by decide⟩

/-- A guarded loop repeats its body while the guard holds and the fuel lasts. -/
def whileLoop {State : Type*} (guard : State → Bool) (body : State → State) :
    Nat → State → State
  | 0, state => state
  | fuel + 1, state =>
      if guard state then whileLoop guard body fuel (body state) else state

/-- A measure below the fuel gives the exit, and the invariant holds there. -/
theorem whileLoop_rule {State : Type*} (guard : State → Bool) (body : State → State)
    (invariant : State → Prop) (size : State → Nat)
    (preserved : ∀ state, invariant state → guard state = true →
      invariant (body state) ∧ size (body state) < size state)
    (fuel : Nat) (state : State) (initial : invariant state) (enough : size state ≤ fuel) :
    invariant (whileLoop guard body fuel state) ∧
      guard (whileLoop guard body fuel state) = false := by
  induction fuel generalizing state with
  | zero =>
      refine ⟨initial, ?_⟩
      by_contra running
      have smaller := (preserved state initial (by simpa [whileLoop] using running)).2
      omega
  | succ fuel ih =>
      rw [whileLoop]
      split
      next running =>
        have next := preserved state initial running
        exact ih (body state) next.1 (by omega)
      next stopped => exact ⟨initial, by simpa using stopped⟩

/-- A loop whose body may return: each round ends with a result or a new state. -/
def returnLoop {State Result : Type*} (body : State → Result ⊕ State) :
    Nat → State → Option Result
  | 0, _ => none
  | fuel + 1, state =>
      match body state with
      | .inl result => some result
      | .inr next => returnLoop body fuel next

/-- A measure below the fuel gives a result, and every return meets the postcondition. -/
theorem returnLoop_rule {State Result : Type*} {body : State → Result ⊕ State}
    (invariant : State → Prop) (size : State → Nat) (post : Result → Prop)
    (returned : ∀ state result, invariant state → body state = .inl result → post result)
    (continued : ∀ state next, invariant state → body state = .inr next →
      invariant next ∧ size next < size state)
    (fuel : Nat) (state : State) (initial : invariant state) (enough : size state < fuel) :
    ∃ result, returnLoop body fuel state = some result ∧ post result := by
  induction fuel generalizing state with
  | zero => omega
  | succ fuel ih =>
      rw [returnLoop]
      cases round : body state with
      | inl result => exact ⟨result, rfl, returned state result initial round⟩
      | inr next =>
          have kept := continued state next initial round
          exact ih next kept.1 (by omega)

/-- A result that the loop gives meets the postcondition, however many rounds it took. -/
theorem returnLoop_result {State Result : Type*} {body : State → Result ⊕ State}
    (invariant : State → Prop) (post : Result → Prop)
    (returned : ∀ state result, invariant state → body state = .inl result → post result)
    (continued : ∀ state next, invariant state → body state = .inr next → invariant next)
    {fuel : Nat} {state : State} {result : Result} (initial : invariant state)
    (ran : returnLoop body fuel state = some result) : post result := by
  induction fuel generalizing state with
  | zero => cases ran
  | succ fuel ih =>
      rw [returnLoop] at ran
      cases round : body state with
      | inl value =>
          rw [round] at ran
          cases ran
          exact returned state result initial round
      | inr next =>
          rw [round] at ran
          exact ih (continued state next initial round) ran

/-- More fuel gives the same result. -/
theorem returnLoop_more {State Result : Type*} {body : State → Result ⊕ State} {fuel : Nat}
    {state : State} {result : Result} (returned : returnLoop body fuel state = some result)
    (more : Nat) : returnLoop body (fuel + more) state = some result := by
  induction fuel generalizing state with
  | zero => cases returned
  | succ fuel ih =>
      rw [Nat.add_right_comm, returnLoop]
      rw [returnLoop] at returned
      cases round : body state with
      | inl value =>
          rw [round] at returned
          exact returned
      | inr next =>
          rw [round] at returned
          exact ih returned

/-- The result does not depend on the fuel. -/
theorem returnLoop_unique {State Result : Type*} {body : State → Result ⊕ State}
    {fuel other : Nat} {state : State} {first second : Result}
    (one : returnLoop body fuel state = some first)
    (two : returnLoop body other state = some second) : first = second := by
  have long := returnLoop_more one other
  rw [Nat.add_comm, returnLoop_more two fuel] at long
  exact (Option.some.inj long).symm

/-- A counted loop applies its body to `count` indices from `first` on. -/
def forLoop {State : Type*} (body : Nat → State → State) (first : Nat) :
    Nat → State → State
  | 0, state => state
  | count + 1, state => body (first + count) (forLoop body first count state)

/-- A counted loop goes through its indices in order. -/
theorem forLoop_eq_foldl {State : Type*} (body : Nat → State → State) (first count : Nat)
    (state : State) : forLoop body first count state =
      (List.range count).foldl (fun current index => body (first + index) current) state := by
  induction count with
  | zero => rfl
  | succ count ih =>
      rw [List.range_succ, List.foldl_append, ← ih]
      rfl

/-- A loop from an index on is a loop from zero on. -/
theorem forLoop_from {State : Type*} (body : Nat → State → State) (first count : Nat)
    (state : State) : forLoop body first count state =
      forLoop (fun index => body (first + index)) 0 count state := by
  rw [forLoop_eq_foldl, forLoop_eq_foldl]
  simp only [Nat.zero_add]

/-- Two loops stay related when each pair of rounds keeps the relation. -/
theorem forLoop_relates {First Second : Type*} {body : Nat → First → First}
    {other : Nat → Second → Second} (relation : First → Second → Prop) {start count : Nat}
    {first : First} {second : Second} (initial : relation first second)
    (preserved : ∀ done left right, done < count → relation left right →
      relation (body (start + done) left) (other (start + done) right)) :
    relation (forLoop body start count first) (forLoop other start count second) := by
  induction count with
  | zero => exact initial
  | succ count ih =>
      have before := ih fun done left right earlier => preserved done left right (by omega)
      exact preserved count _ _ (Nat.lt_succ_self count) before

/-- An invariant of the rounds done holds for all of them at the end. -/
theorem forLoop_rule {State : Type*} {body : Nat → State → State} {first count : Nat}
    {state : State} (invariant : Nat → State → Prop) (initial : invariant 0 state)
    (preserved : ∀ done current, done < count → invariant done current →
      invariant (done + 1) (body (first + done) current)) :
    invariant count (forLoop body first count state) := by
  induction count with
  | zero => exact initial
  | succ count ih =>
      have before := ih fun done current earlier => preserved done current (by omega)
      exact preserved count _ (by omega) before

/-- A loop that stores one new value in each place before it reaches the next. -/
theorem forLoop_update {Value : Type*} {value : Nat → (Nat → Value) → Value} {count : Nat}
    {state : Nat → Value} (result : Nat → Value)
    (stored : ∀ done current, done < count →
      (∀ place, current place = if place < done then result place else state place) →
        value done current = result done) (place : Nat) :
    forLoop (fun place current => Function.update current place (value place current))
      0 count state place = if place < count then result place else state place := by
  revert place
  apply forLoop_rule fun done (current : Nat → Value) =>
    ∀ place, current place = if place < done then result place else state place
  · intro place
    rw [if_neg (Nat.not_lt_zero place)]
  · intro done current early before place
    rw [Nat.zero_add, Function.update_apply, stored done current early before, before place]
    by_cases here : place = done
    · rw [if_pos here, if_pos (by omega), here]
    · simp only [if_neg here, show place < done + 1 ↔ place < done by omega]

end ComputerSystems.Library
