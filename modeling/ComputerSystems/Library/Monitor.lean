import ComputerSystems.Library.Run

namespace ComputerSystems.Library.Monitor

/-- What a thread asks of the lock and the condition in a step. -/
inductive Action where
  | run
  | lock
  | unlock
  | wait
  | signal
  deriving DecidableEq

/-- Threads with variables of their own, shared variables, a lock, and a condition. -/
structure State (Thread : Type) (Local : Thread → Type) (Shared : Type) where
  locals : (thread : Thread) → Local thread
  shared : Shared
  owner : Option Thread
  asleep : Thread → Bool

/-- What a thread does next with an input, when it has not ended. -/
abbrev Code (Thread : Type) (Local : Thread → Type) (Shared Input : Type) : Type :=
  (thread : Thread) → Local thread → Shared → Input → Option (Action × Local thread × Shared)

/-- A thread takes a step, or wakes up without a signal. -/
inductive Event (Thread Input : Type) where
  | turn (thread : Thread) (input : Input)
  | wake (thread : Thread)

variable {Thread : Type} [DecidableEq Thread] {Local : Thread → Type} {Shared Input : Type}

/-- A thread waits while another one owns the lock. A wait gives the lock back, and a signal wakes
the threads that wait. -/
def step (code : Code Thread Local Shared Input) (state : State Thread Local Shared) :
    Event Thread Input → Except Unit (State Thread Local Shared)
  | .wake thread => .ok { state with asleep := Function.update state.asleep thread false }
  | .turn thread input =>
      if state.asleep thread then .error ()
      else
        match code thread (state.locals thread) state.shared input with
        | none => .error ()
        | some (action, there, after) =>
            let moved := { state with
              locals := Function.update state.locals thread there
              shared := after }
            match action with
            | .run => .ok moved
            | .lock =>
                if state.owner = none then .ok { moved with owner := some thread } else .error ()
            | .unlock =>
                if state.owner = some thread then .ok { moved with owner := none } else .error ()
            | .wait =>
                if state.owner = some thread then
                  .ok { moved with
                    owner := none
                    asleep := Function.update state.asleep thread true }
                else .error ()
            | .signal => .ok { moved with asleep := fun _ => false }

/-- How an action leads between the places inside and outside of the lock. -/
def Action.leads : Action → Bool → Bool → Prop
  | .run, here, there => there = here
  | .lock, here, there => here = false ∧ there = true
  | .unlock, here, there => here = true ∧ there = false
  | .wait, here, there => here = true ∧ there = false
  | .signal, here, there => there = here

/-- The places inside are those between a lock and the next unlock or wait. -/
def Disciplined (code : Code Thread Local Shared Input)
    (inside : (thread : Thread) → Local thread → Bool) : Prop :=
  ∀ thread here shared input action there after,
    code thread here shared input = some (action, there, after) →
      action.leads (inside thread here) (inside thread there)

/-- The thread changes the field only inside. -/
def Guards (code : Code Thread Local Shared Input)
    (inside : (thread : Thread) → Local thread → Bool) {Value : Type} (field : Shared → Value)
    (thread : Thread) : Prop :=
  ∀ here shared input action there after,
    code thread here shared input = some (action, there, after) → inside thread here = false →
      field after = field shared

/-- The owner of the lock is the thread at a place inside. -/
def Owned (inside : (thread : Thread) → Local thread → Bool)
    (state : State Thread Local Shared) : Prop :=
  ∀ thread, inside thread (state.locals thread) = true ↔ state.owner = some thread

/-- What an action needs and what it does to the lock and to the threads that wait. -/
inductive Effect (thread : Thread) (owner : Option Thread) (asleep : Thread → Bool) :
    Action → Option Thread → (Thread → Bool) → Prop where
  | run : Effect thread owner asleep .run owner asleep
  | lock (free : owner = none) : Effect thread owner asleep .lock (some thread) asleep
  | unlock (held : owner = some thread) : Effect thread owner asleep .unlock none asleep
  | wait (held : owner = some thread) :
      Effect thread owner asleep .wait none (Function.update asleep thread true)
  | signal : Effect thread owner asleep .signal owner fun _ => false

/-- A turn is a step of the thread's code, and the other threads stay where they are. -/
structure Turned (code : Code Thread Local Shared Input) (state : State Thread Local Shared)
    (thread : Thread) (input : Input) (action : Action) (next : State Thread Local Shared) :
    Prop where
  awake : state.asleep thread = false
  coded : code thread (state.locals thread) state.shared input =
    some (action, next.locals thread, next.shared)
  others : ∀ other ≠ thread, next.locals other = state.locals other
  effect : Effect thread state.owner state.asleep action next.owner next.asleep

section
variable {code : Code Thread Local Shared Input} {state next : State Thread Local Shared}
variable {inside : (thread : Thread) → Local thread → Bool} {thread : Thread} {input : Input}
variable {action : Action}

theorem turned (stepped : step code state (.turn thread input) = .ok next) :
    ∃ action, Turned code state thread input action next := by
  rw [step] at stepped
  by_cases asleep : state.asleep thread = true
  · rw [if_pos asleep] at stepped
    cases stepped
  rw [if_neg asleep] at stepped
  have awake := Bool.eq_false_of_not_eq_true asleep
  cases coded : code thread (state.locals thread) state.shared input with
  | none =>
      rw [coded] at stepped
      cases stepped
  | some outcome =>
      obtain ⟨action, there, after⟩ := outcome
      rw [coded] at stepped
      have built {owner : Option Thread} {asleep : Thread → Bool}
          (effect : Effect thread state.owner state.asleep action owner asleep) :
          Turned code state thread input action
            ⟨Function.update state.locals thread there, after, owner, asleep⟩ := by
        refine ⟨awake, ?_, fun other apart => Function.update_of_ne apart .., effect⟩
        rw [coded]
        exact congrArg (fun local_ => some (action, local_, after))
          (Function.update_self thread there state.locals).symm
      refine ⟨action, ?_⟩
      dsimp only at stepped
      cases action with
      | run =>
          cases stepped
          exact built .run
      | lock =>
          dsimp only at stepped
          split_ifs at stepped with free
          cases stepped
          exact built (.lock free)
      | unlock =>
          dsimp only at stepped
          split_ifs at stepped with held
          cases stepped
          exact built (.unlock held)
      | wait =>
          dsimp only at stepped
          split_ifs at stepped with held
          cases stepped
          exact built (.wait held)
      | signal =>
          cases stepped
          exact built .signal

/-- A disciplined turn keeps the owner inside and the others outside. -/
theorem Owned.turn (disciplined : Disciplined code inside) (owned : Owned inside state)
    (turn : Turned code state thread input action next) : Owned inside next := by
  have leads := disciplined _ _ _ _ _ _ _ turn.coded
  have before := owned thread
  have effect := turn.effect
  generalize there_eq : inside thread (next.locals thread) = there at leads
  generalize inside thread (state.locals thread) = here at leads before
  intro other
  by_cases same : other = thread
  · subst same
    rw [there_eq]
    generalize next.owner = owner at effect
    generalize next.asleep = asleep at effect
    cases effect with
    | run => exact leads ▸ before
    | lock free => exact iff_of_true leads.2 rfl
    | unlock held => exact iff_of_false (by rw [leads.2]; decide) (Option.some_ne_none _).symm
    | wait held => exact iff_of_false (by rw [leads.2]; decide) (Option.some_ne_none _).symm
    | signal => exact leads ▸ before
  · rw [turn.others other same, owned other]
    generalize next.owner = owner at effect
    generalize next.asleep = asleep at effect
    cases effect with
    | run => exact Iff.rfl
    | lock free =>
        rw [free, Option.some_inj]
        exact iff_of_false (Option.some_ne_none other).symm (Ne.symm same)
    | unlock held =>
        rw [held, Option.some_inj]
        exact iff_of_false (Ne.symm same) (Option.some_ne_none other).symm
    | wait held =>
        rw [held, Option.some_inj]
        exact iff_of_false (Ne.symm same) (Option.some_ne_none other).symm
    | signal => exact Iff.rfl

theorem Owned.step (disciplined : Disciplined code inside) (owned : Owned inside state)
    {event : Event Thread Input} (stepped : step code state event = .ok next) :
    Owned inside next := by
  cases event with
  | turn thread input =>
      obtain ⟨action, turn⟩ := turned stepped
      exact owned.turn disciplined turn
  | wake thread =>
      cases stepped
      exact owned

omit [DecidableEq Thread] in
/-- No two threads are inside at once. -/
theorem Owned.exclusive (owned : Owned inside state) {first second : Thread}
    (one : inside first (state.locals first) = true)
    (two : inside second (state.locals second) = true) : first = second :=
  Option.some.inj (((owned first).1 one).symm.trans ((owned second).1 two))

/-- While a thread is inside, another one that guards the field does not change it. -/
theorem Owned.keeps (owned : Owned inside state) {Value : Type} {field : Shared → Value}
    (guards : Guards code inside field thread) {holder : Thread}
    (holds : inside holder (state.locals holder) = true) (other : thread ≠ holder)
    (turn : Turned code state thread input action next) :
    field next.shared = field state.shared := by
  refine guards _ _ _ _ _ _ turn.coded (Bool.eq_false_of_not_eq_true fun within => ?_)
  exact other (owned.exclusive within holds)

/-- The owner of the lock goes on whatever the input is, unless its code ends there. -/
theorem Owned.advances (disciplined : Disciplined code inside) (owned : Owned inside state)
    (holds : inside thread (state.locals thread) = true) (awake : state.asleep thread = false)
    (goes : code thread (state.locals thread) state.shared input ≠ none) :
    ∃ next, Monitor.step code state (.turn thread input) = .ok next := by
  obtain ⟨⟨action, there, after⟩, coded⟩ := Option.ne_none_iff_exists'.1 goes
  have leads := disciplined _ _ _ _ _ _ _ coded
  have held := (owned thread).1 holds
  rw [Monitor.step, if_neg (by rw [awake]; decide), coded]
  cases action with
  | run => exact ⟨_, rfl⟩
  | lock =>
      rw [holds] at leads
      exact absurd leads.1 (by decide)
  | unlock => exact ⟨_, if_pos held⟩
  | wait => exact ⟨_, if_pos held⟩
  | signal => exact ⟨_, rfl⟩

/-- The threads that wait were asleep before, or begin to wait. A signal leaves none of them. -/
theorem Effect.sleeper {owner after : Option Thread} {asleep later : Thread → Bool}
    (effect : Effect thread owner asleep action after later) {other : Thread}
    (sleeps : later other = true) :
    action ≠ .signal ∧ (asleep other = true ∨ action = .wait ∧ other = thread) := by
  cases effect with
  | run => exact ⟨nofun, .inl sleeps⟩
  | lock => exact ⟨nofun, .inl sleeps⟩
  | unlock => exact ⟨nofun, .inl sleeps⟩
  | wait =>
      refine ⟨nofun, ?_⟩
      by_cases same : other = thread
      · exact .inr ⟨rfl, same⟩
      · rw [Function.update_of_ne same] at sleeps
        exact .inl sleeps
  | signal => cases sleeps

/-- The number of turns of a thread. -/
def turns (thread : Thread) (events : List (Event Thread Input)) : Nat :=
  events.countP fun event =>
    match event with
    | .turn other _ => other = thread
    | .wake _ => false

theorem turns_own (rest : List (Event Thread Input)) :
    turns thread (.turn thread input :: rest) = turns thread rest + 1 :=
  List.countP_cons_of_pos (decide_eq_true rfl)

theorem turns_other {other : Thread} (apart : other ≠ thread)
    (rest : List (Event Thread Input)) :
    turns thread (.turn other input :: rest) = turns thread rest :=
  List.countP_cons_of_neg (by
    dsimp only
    rw [decide_eq_false apart]
    decide)

theorem turns_wake (other : Thread) (rest : List (Event Thread Input)) :
    turns thread (.wake other :: rest) = turns thread rest :=
  List.countP_cons_of_neg Bool.false_ne_true

/-- While a condition holds, a thread takes no more turns than its rank when each of them lowers
the rank and nothing else raises it. -/
theorem turns_le {invariant condition : State Thread Local Shared → Prop}
    {rank : State Thread Local Shared → Nat}
    (kept : ∀ state event next, invariant state → condition state →
      step code state event = .ok next → invariant next)
    (own : ∀ state action input next, invariant state → condition state →
      Turned code state thread input action next → rank next + 1 ≤ rank state)
    (others : ∀ state other action input next, other ≠ thread →
      Turned code state other input action next → rank next = rank state)
    (woken : ∀ state other next, step code state (.wake other) = .ok next →
      rank next = rank state)
    {events : List (Event Thread Input)} {final : State Thread Local Shared}
    (initial : invariant state)
    (along : Along (fun state _ => condition state) (step code) state events)
    (ran : run (step code) state events = .ok final) :
    turns thread events + rank final ≤ rank state := by
  induction events generalizing state with
  | nil =>
      cases ran
      exact (Nat.zero_add _).le
  | cons event rest ih =>
      cases stepped : step code state event with
      | error stop =>
          rw [run, stepped] at ran
          cases ran
      | ok next =>
          rw [run_cons _ _ _ _ _ stepped] at ran
          have later := ih (kept state event next initial along.1 stepped)
            (along.2 next stepped) ran
          cases event with
          | wake other =>
              rw [turns_wake, ← woken state other next stepped]
              exact later
          | turn other input =>
              obtain ⟨action, turn⟩ := turned stepped
              by_cases same : other = thread
              · subst same
                have lower := own state action input next initial along.1 turn
                rw [turns_own]
                omega
              · rw [turns_other same, ← others state other action input next same turn]
                exact later

end

end ComputerSystems.Library.Monitor
