import Mathlib.Tactic

namespace ComputerSystems.Library

variable {State Event Stop : Type*}

/-- A run applies its events in order and ends at the first step that stops. -/
def run (step : State → Event → Except Stop State) : State → List Event → Except Stop State
  | state, [] => .ok state
  | state, event :: rest =>
      match step state event with
      | .ok next => run step next rest
      | .error stop => .error stop

theorem run_cons (step : State → Event → Except Stop State) (state next : State)
    (event : Event) (rest : List Event) (first : step state event = .ok next) :
    run step state (event :: rest) = run step next rest := by
  rw [run, first]

theorem run_append (step : State → Event → Except Stop State) (state : State)
    (first rest : List Event) :
    run step state (first ++ rest) =
      match run step state first with
      | .ok next => run step next rest
      | .error stop => .error stop := by
  induction first generalizing state with
  | nil => rfl
  | cons event others ih =>
      rw [List.cons_append, run, run]
      cases step state event with
      | ok next => exact ih next
      | error stop => rfl

/-- Whether a run ends in a state that passes a check. -/
def runCheck (step : State → Event → Except Stop State) (state : State) (events : List Event)
    (check : State → Bool) : Bool :=
  match run step state events with
  | .ok final => check final
  | .error _ => false

theorem runCheck_sound {step : State → Event → Except Stop State} {state : State}
    {events : List Event} {check : State → Bool}
    (passed : runCheck step state events check = true) :
    ∃ final, run step state events = .ok final ∧ check final = true := by
  unfold runCheck at passed
  split at passed
  next final reached => exact ⟨final, reached, passed⟩
  next => cases passed

/-- The condition holds at every step of the run. -/
def Along (condition : State → Event → Prop) (step : State → Event → Except Stop State) :
    State → List Event → Prop
  | _, [] => True
  | state, event :: rest => condition state event ∧
      ∀ next, step state event = .ok next → Along condition step next rest

/-- A decidable condition can be checked along a run. -/
instance decidableAlong (condition : State → Event → Prop)
    (step : State → Event → Except Stop State) [∀ state event, Decidable (condition state event)] :
    (state : State) → (events : List Event) → Decidable (Along condition step state events)
  | _, [] => .isTrue trivial
  | state, event :: rest =>
      match first : step state event with
      | .error _ => decidable_of_iff (condition state event)
          ⟨fun holds => ⟨holds, fun _ reached => by rw [first] at reached; cases reached⟩, And.left⟩
      | .ok next =>
          have := decidableAlong condition step next rest
          decidable_of_iff (condition state event ∧ Along condition step next rest)
            ⟨fun holds => ⟨holds.1, fun _ reached => by
              rw [first] at reached
              cases reached
              exact holds.2⟩, fun holds => ⟨holds.1, holds.2 next first⟩⟩

/-- A condition on the events alone holds along every run of such events. -/
theorem along_of_forall {condition : Event → Prop} (step : State → Event → Except Stop State)
    (state : State) (events : List Event) (all : ∀ event ∈ events, condition event) :
    Along (fun _ event => condition event) step state events := by
  induction events generalizing state with
  | nil => trivial
  | cons event rest ih =>
      refine ⟨all event List.mem_cons_self, fun next _ => ih next fun other member => ?_⟩
      exact all other (List.mem_cons_of_mem event member)

theorem Along.mono {condition other : State → Event → Prop}
    {step : State → Event → Except Stop State} {state : State} {events : List Event}
    (allowed : Along condition step state events)
    (weaker : ∀ state event, condition state event → other state event) :
    Along other step state events := by
  induction events generalizing state with
  | nil => trivial
  | cons event rest ih =>
      exact ⟨weaker state event allowed.1, fun next stepped => ih (allowed.2 next stepped)⟩

theorem Along.and {condition other : State → Event → Prop}
    {step : State → Event → Except Stop State} {state : State} {events : List Event}
    (allowed : Along condition step state events) (also : Along other step state events) :
    Along (fun state event => condition state event ∧ other state event) step state events := by
  induction events generalizing state with
  | nil => trivial
  | cons event rest ih =>
      refine ⟨⟨allowed.1, also.1⟩, fun next stepped => ?_⟩
      exact ih (allowed.2 next stepped) (also.2 next stepped)

theorem along_true (step : State → Event → Except Stop State) (state : State)
    (events : List Event) : Along (fun _ _ => True) step state events :=
  along_of_forall step state events fun _ _ => trivial

/-- An invariant of every allowed step holds at the end of every allowed run. -/
theorem run_invariant {condition : State → Event → Prop}
    {step : State → Event → Except Stop State} (invariant : State → Prop)
    (preserved : ∀ state event next, invariant state → condition state event →
      step state event = .ok next → invariant next)
    {state final : State} {events : List Event} (initial : invariant state)
    (allowed : Along condition step state events) (reached : run step state events = .ok final) :
    invariant final := by
  induction events generalizing state with
  | nil =>
      cases reached
      exact initial
  | cons event rest ih =>
      cases first : step state event with
      | error stop =>
          rw [run, first] at reached
          cases reached
      | ok next =>
          rw [run_cons step state next event rest first] at reached
          exact ih (preserved state event next initial allowed.1 first) (allowed.2 next first)
            reached

/-- An allowed run stays related to a model that advances with the same events. -/
theorem run_simulates_along {Model : Type*} {condition : State → Event → Prop}
    {step : State → Event → Except Stop State}
    (relation : State → Model → Prop) (advance : Model → Event → Model)
    (preserved : ∀ state event next model, relation state model → condition state event →
      step state event = .ok next → relation next (advance model event))
    {state final : State} {model : Model} {events : List Event} (initial : relation state model)
    (allowed : Along condition step state events) (reached : run step state events = .ok final) :
    relation final (events.foldl advance model) := by
  induction events generalizing state model with
  | nil =>
      cases reached
      exact initial
  | cons event rest ih =>
      cases first : step state event with
      | error stop =>
          rw [run, first] at reached
          cases reached
      | ok next =>
          rw [run_cons step state next event rest first] at reached
          exact ih (preserved state event next model initial allowed.1 first)
            (allowed.2 next first) reached

theorem run_simulates {Model : Type*} {step : State → Event → Except Stop State}
    (relation : State → Model → Prop) (advance : Model → Event → Model)
    (preserved : ∀ state event next model, relation state model →
      step state event = .ok next → relation next (advance model event))
    {state final : State} {model : Model} {events : List Event} (initial : relation state model)
    (reached : run step state events = .ok final) :
    relation final (events.foldl advance model) :=
  run_simulates_along relation advance
    (fun state event next model related _ stepped =>
      preserved state event next model related stepped)
    initial (along_true step state events) reached

/-- A run stops only for a reason for which some step from an invariant state stops. -/
theorem run_stops {condition : State → Event → Prop}
    {step : State → Event → Except Stop State} (invariant : State → Prop)
    (reasons : Stop → Prop)
    (preserved : ∀ state event next, invariant state → condition state event →
      step state event = .ok next → invariant next)
    (stops : ∀ state event stop, invariant state → condition state event →
      step state event = .error stop → reasons stop)
    {state : State} {events : List Event} {stop : Stop} (initial : invariant state)
    (allowed : Along condition step state events)
    (stopped : run step state events = .error stop) : reasons stop := by
  induction events generalizing state with
  | nil => cases stopped
  | cons event rest ih =>
      cases first : step state event with
      | error reason =>
          rw [run, first] at stopped
          cases stopped
          exact stops state event stop initial allowed.1 first
      | ok next =>
          rw [run_cons step state next event rest first] at stopped
          exact ih (preserved state event next initial allowed.1 first) (allowed.2 next first)
            stopped

/-- The property holds in every state that the run reaches. -/
def Always (property : State → Prop) (step : State → Event → Except Stop State) :
    State → List Event → Prop
  | state, [] => property state
  | state, event :: rest => property state ∧
      ∀ next, step state event = .ok next → Always property step next rest

theorem Always.initial {property : State → Prop} {step : State → Event → Except Stop State}
    {state : State} {events : List Event} (always : Always property step state events) :
    property state := by
  cases events with
  | nil => exact always
  | cons event rest => exact always.1

/-- The states that a run reaches are the final states of its beginnings. -/
theorem always_iff_reached (property : State → Prop) (step : State → Event → Except Stop State)
    (state : State) (events : List Event) :
    Always property step state events ↔ ∀ done final, done <+: events →
      run step state done = .ok final → property final := by
  induction events generalizing state with
  | nil =>
      constructor
      · intro always done final before reached
        rw [List.prefix_nil.1 before] at reached
        cases reached
        exact always
      · exact fun all => all [] state (List.prefix_refl []) rfl
  | cons event rest ih =>
      constructor
      · rintro ⟨here, later⟩ done final before reached
        cases done with
        | nil =>
            cases reached
            exact here
        | cons first done =>
            obtain ⟨rfl, remaining⟩ := List.cons_prefix_cons.1 before
            cases stepped : step state first with
            | error stop =>
                rw [run, stepped] at reached
                cases reached
            | ok next =>
                rw [run_cons step state next first done stepped] at reached
                exact (ih next).1 (later next stepped) done final remaining reached
      · intro all
        refine ⟨all [] state List.nil_prefix rfl, fun next stepped => (ih next).2 ?_⟩
        intro done final before reached
        apply all (event :: done) final (List.cons_prefix_cons.2 ⟨rfl, before⟩)
        rw [run_cons step state next event done stepped]
        exact reached

/-- A run that ends in a state without the property refutes it. -/
theorem not_always_of_runCheck {property : State → Prop} [DecidablePred property]
    {step : State → Event → Except Stop State} {state : State} {events : List Event}
    (fails : runCheck step state events (fun final => decide ¬property final) = true) :
    ¬Always property step state events := by
  intro always
  obtain ⟨final, reached, failed⟩ := runCheck_sound fails
  rw [always_iff_reached] at always
  exact of_decide_eq_true failed (always events final (List.prefix_refl events) reached)

/-- A condition that is exact for each given step is exact for a run of such steps. The invariant
needs to last as long as the property does. -/
theorem always_iff_along_given {given condition : State → Event → Prop} {property : State → Prop}
    {step : State → Event → Except Stop State} (invariant : State → Prop)
    (preserved : ∀ state event next, invariant state → property state → given state event →
      step state event = .ok next → property next → invariant next)
    (exact : ∀ state event, invariant state → property state → given state event →
      (condition state event ↔ ∀ next, step state event = .ok next → property next))
    {state : State} (initial : invariant state) (holds : property state) {events : List Event}
    (allowed : Along given step state events) :
    Always property step state events ↔ Along condition step state events := by
  induction events generalizing state with
  | nil => exact iff_of_true holds trivial
  | cons event rest ih =>
      have next (next : State) (stepped : step state event = .ok next) (after : property next) :=
        ih (preserved state event next initial holds allowed.1 stepped after) after
          (allowed.2 next stepped)
      rw [Always, Along, exact state event initial holds allowed.1, and_iff_right holds]
      constructor
      · intro later
        have after : ∀ next, step state event = .ok next → property next :=
          fun next stepped => (later next stepped).initial
        exact ⟨after, fun following stepped =>
          (next following stepped (after following stepped)).1 (later following stepped)⟩
      · rintro ⟨after, along⟩ following stepped
        exact (next following stepped (after following stepped)).2 (along following stepped)

/-- A condition that is exact for each step is exact for a run. The invariant needs to last as
long as the property does. -/
theorem always_iff_along_while {condition : State → Event → Prop} {property : State → Prop}
    {step : State → Event → Except Stop State} (invariant : State → Prop)
    (preserved : ∀ state event next, invariant state → property state →
      step state event = .ok next → property next → invariant next)
    (exact : ∀ state event, invariant state → property state →
      (condition state event ↔ ∀ next, step state event = .ok next → property next))
    {state : State} (initial : invariant state) (holds : property state) (events : List Event) :
    Always property step state events ↔ Along condition step state events :=
  always_iff_along_given invariant
    (fun state event next kept held _ => preserved state event next kept held)
    (fun state event kept held _ => exact state event kept held) initial holds
    (along_true step state events)

theorem always_iff_along {condition : State → Event → Prop} {property : State → Prop}
    {step : State → Event → Except Stop State} (invariant : State → Prop)
    (preserved : ∀ state event next, invariant state → step state event = .ok next →
      invariant next)
    (exact : ∀ state event, invariant state → property state →
      (condition state event ↔ ∀ next, step state event = .ok next → property next))
    {state : State} (initial : invariant state) (holds : property state) (events : List Event) :
    Always property step state events ↔ Along condition step state events :=
  always_iff_along_while invariant
    (fun state event next kept _ stepped _ => preserved state event next kept stepped)
    exact initial holds events

/-- A run that does not end spoiled has met the condition that guards against it. -/
theorem run_unspoiled {condition : State → Event → Prop} {step : State → Event → Except Stop State}
    (invariant spoiled : State → Prop)
    (preserved : ∀ state event next, invariant state → step state event = .ok next →
      invariant next)
    (spoils : ∀ state event next, invariant state → ¬condition state event →
      step state event = .ok next → spoiled next)
    (stays : ∀ state event next, spoiled state → step state event = .ok next → spoiled next)
    {state final : State} {events : List Event} (initial : invariant state)
    (reached : run step state events = .ok final) (clean : ¬spoiled final) :
    Along condition step state events := by
  induction events generalizing state with
  | nil => trivial
  | cons event rest ih =>
      cases stepped : step state event with
      | error stop =>
          rw [run, stepped] at reached
          cases reached
      | ok next =>
          rw [run_cons step state next event rest stepped] at reached
          refine ⟨?_, fun after also => ?_⟩
          · by_contra failed
            apply clean
            exact run_invariant spoiled (fun state event next bad _ => stays state event next bad)
              (spoils state event next initial failed stepped) (along_true step next rest) reached
          · rw [stepped] at also
            cases also
            exact ih (preserved state event next initial stepped) reached

/-- An invariant of every allowed step holds in every state that an allowed run reaches. -/
theorem always_of_along {condition : State → Event → Prop} {property : State → Prop}
    {step : State → Event → Except Stop State} (invariant : State → Prop)
    (preserved : ∀ state event next, invariant state → condition state event →
      step state event = .ok next → invariant next)
    (holds : ∀ state, invariant state → property state)
    {state : State} {events : List Event} (initial : invariant state)
    (allowed : Along condition step state events) : Always property step state events := by
  induction events generalizing state with
  | nil => exact holds state initial
  | cons event rest ih =>
      refine ⟨holds state initial, fun next stepped => ?_⟩
      exact ih (preserved state event next initial allowed.1 stepped) (allowed.2 next stepped)

end ComputerSystems.Library
