import ComputerSystems.Library.Loop
import ComputerSystems.Library.Run

namespace ComputerSystems.Library

section Ring

variable {size : Nat} {live : Fin (size + 1) → Bool}

/-- The first live slot behind the current one. -/
def nextLive (live : Fin (size + 1) → Bool) (current : Fin (size + 1)) : Fin (size + 1) :=
  whileLoop (fun slot => !live slot) (· + 1) (size + 1) (current + 1)

/-- The slots that come before a target. -/
def gap (current target : Fin (size + 1)) : Nat := (target - (current + 1)).val

theorem gap_le (current target : Fin (size + 1)) : gap current target ≤ size :=
  Nat.le_of_lt_succ (target - (current + 1)).isLt

/-- One step closer to another slot. -/
theorem sub_succ_lt {slot target : Fin (size + 1)} (apart : slot ≠ target) :
    (target - (slot + 1)).val < (target - slot).val := by
  have positive : target - slot ≠ 0 := sub_ne_zero.2 apart.symm
  rw [← sub_sub, Fin.val_sub_one_of_ne_zero positive]
  exact Nat.sub_one_lt fun zero => positive (Fin.ext zero)

/-- The search stops at a live slot and passes over none. -/
theorem search_live {target : Fin (size + 1)} (alive : live target = true) (fuel : Nat)
    (slot : Fin (size + 1)) (near : (target - slot).val ≤ fuel) :
    live (whileLoop (fun slot => !live slot) (· + 1) fuel slot) = true ∧
      (target - whileLoop (fun slot => !live slot) (· + 1) fuel slot).val ≤
        (target - slot).val := by
  induction fuel generalizing slot with
  | zero =>
      have here : slot = target := by
        have zero : target - slot = 0 := Fin.ext (Nat.le_zero.1 near)
        exact (sub_eq_zero.1 zero).symm
      rw [whileLoop, here]
      exact ⟨alive, le_rfl⟩
  | succ fuel ih =>
      rw [whileLoop]
      by_cases stops : live slot = true
      · rw [if_neg (by simp [stops])]
        exact ⟨stops, le_rfl⟩
      · have closer : (target - (slot + 1)).val < (target - slot).val :=
          sub_succ_lt fun same => stops (same ▸ alive)
        rw [if_pos (by simpa using stops)]
        obtain ⟨found, nearer⟩ := ih (slot + 1) (by omega)
        exact ⟨found, nearer.trans closer.le⟩

theorem nextLive_live {target : Fin (size + 1)} (alive : live target = true)
    (current : Fin (size + 1)) : live (nextLive live current) = true :=
  (search_live alive (size + 1) (current + 1) ((gap_le current target).trans (Nat.le_succ _))).1

/-- A live slot is next, or fewer slots come before it. -/
theorem gap_nextLive {target : Fin (size + 1)} (alive : live target = true)
    (current : Fin (size + 1)) :
    nextLive live current = target ∨ gap (nextLive live current) target < gap current target := by
  have passed := (search_live alive (size + 1) (current + 1)
    ((gap_le current target).trans (Nat.le_succ _))).2
  rw [or_iff_not_imp_left]
  exact fun apart => (sub_succ_lt apart).trans_le passed

end Ring

section Response

variable {State Event Stop : Type*} {step : State → Event → Except Stop State}

/-- A request is served within a bounded number of ticks when each tick serves it or lowers its
rank and no other event raises the rank. -/
theorem served_within (tick : Event → Bool) (invariant : State → Prop) (rank : State → Nat)
    (served : State → Event → State → Prop)
    (others : ∀ state event next, invariant state → tick event = false →
      step state event = .ok next → invariant next ∧ rank next ≤ rank state)
    (ticks : ∀ state event next, invariant state → tick event = true →
      step state event = .ok next →
        served state event next ∨ invariant next ∧ rank next < rank state)
    {state final : State} {events : List Event} (initial : invariant state)
    (reached : run step state events = .ok final) (enough : rank state < events.countP tick) :
    ∃ before event after middle next, events = before ++ event :: after ∧
      before.countP tick ≤ rank state ∧ tick event = true ∧
        run step state before = .ok middle ∧ step middle event = .ok next ∧
          served middle event next := by
  induction events generalizing state with
  | nil => exact absurd enough (Nat.not_lt_zero _)
  | cons event rest ih =>
      cases first : step state event with
      | error stop =>
          rw [run, first] at reached
          cases reached
      | ok next =>
          rw [run_cons step state next event rest first] at reached
          -- A later service is found in the rest of the run.
          have later (kept : invariant next) (bound : rank next + (if tick event then 1 else 0) ≤
              rank state) : ∃ before other after middle last,
                event :: rest = before ++ other :: after ∧ before.countP tick ≤ rank state ∧
                  tick other = true ∧ run step state before = .ok middle ∧
                    step middle other = .ok last ∧ served middle other last := by
            rw [List.countP_cons] at enough
            obtain ⟨before, other, after, middle, last, shape, few, isTick, passed, stepped,
              done⟩ := ih kept reached (by omega)
            refine ⟨event :: before, other, after, middle, last, ?_, ?_, isTick, ?_, stepped, done⟩
            · rw [shape]
              rfl
            · rw [List.countP_cons]
              omega
            · rw [run_cons step state next event before first]
              exact passed
          cases kind : tick event with
          | false =>
              obtain ⟨kept, lower⟩ := others state event next initial kind first
              exact later kept (by rw [kind]; exact lower)
          | true =>
              rcases ticks state event next initial kind first with done | ⟨kept, lower⟩
              · exact ⟨[], event, rest, state, next, rfl, Nat.zero_le _, kind, rfl, first, done⟩
              · exact later kept (by rw [kind]; exact lower)

end Response

end ComputerSystems.Library
