import ComputerSystems.Proof.Mp2.Threads

namespace ComputerSystems.Mp2.Threads

open Library Monitor

/-- The steps that remain to `rtc_thread` before it gives the lock back. -/
def RtcPlace.held : RtcPlace → Nat
  | .compare => 8
  | .opposite => 7
  | .turn => 6
  | .square => 5
  | .tryTurn _ => 4
  | .assign _ => 3
  | .settle _ | .setPressed _ | .testSignal => 2
  | .unlockDir | .unlockWon | .unlockPressed | .unlockSignal => 1
  | _ => 0

def KeyboardPlace.held : KeyboardPlace → Nat
  | .setKey _ => 2
  | .unlockKey => 1
  | _ => 0

def TuxLocal.held : TuxLocal → Nat
  | .test => 7
  | .right => 6
  | .left => 5
  | .down => 4
  | .up => 3
  | .set _ => 2
  | .unlock => 1
  | _ => 0

def held : (thread : Thread) → Local thread → Nat
  | .rtc, here => here.place.held
  | .keyboard, here => here.place.held
  | .tux, here => here.held

/-- The steps that remain to `rtc_thread` before it signals what it has set. -/
def RtcPlace.signals : RtcPlace → Nat
  | .unlockPressed => 3
  | .lockSignal => 2
  | .testSignal => 1
  | _ => 0

section
variable {blocks : Blocks} {setup : Nat → StatusSetup} {shared after : Shared} {input : Input}
variable {action : Action}

/-- A thread with the lock has a next step, which comes nearer to the unlock. -/
theorem rtc_held {here : RtcLocal} (within : inside .rtc here = true) :
    ∃ action there after, rtcCode blocks setup here shared input = some (action, there, after) ∧
      there.place.held + 1 ≤ here.place.held := by
  obtain ⟨place, level, ticks, session⟩ := here
  unfold rtcCode
  cases place with
  | compare =>
      refine ⟨_, _, _, rfl, ?_⟩
      dsimp only [RtcLocal.goto]
      split_ifs <;> decide
  | opposite =>
      dsimp only
      split_ifs
      · exact ⟨_, _, _, rfl, le_rfl⟩
      · exact ⟨_, _, _, rfl, Nat.le_succ 6⟩
  | square =>
      dsimp only
      split_ifs
      all_goals exact ⟨_, _, _, rfl, by simp [RtcPlace.held, RtcLocal.plays, RtcLocal.goto]⟩
  | tryTurn isOpen =>
      refine ⟨_, _, _, rfl, ?_⟩
      dsimp only [RtcLocal.goto]
      split_ifs <;> simp [RtcPlace.held]
  | setPressed | unlockPressed | testSignal | unlockSignal | turn | assign | settle | unlockDir
  | unlockWon => exact ⟨_, _, _, rfl, le_rfl⟩
  | _ => cases within

theorem keyboard_held {here : KeyboardLocal} (within : inside .keyboard here = true) :
    ∃ action there after, keyboardCode here shared input = some (action, there, after) ∧
      there.place.held + 1 ≤ here.place.held := by
  obtain ⟨place, state⟩ := here
  cases place with
  | setKey | unlockKey => exact ⟨_, _, _, rfl, le_rfl⟩
  | _ => cases within

theorem tux_held {here : TuxLocal} (within : inside .tux here = true) :
    ∃ action there after, tuxCode here shared = some (action, there, after) ∧
      there.held + 1 ≤ here.held := by
  unfold tuxCode
  cases here with
  | test =>
      dsimp only
      split_ifs
      · exact ⟨_, _, _, rfl, le_rfl⟩
      · exact ⟨_, _, _, rfl, by decide⟩
  | right | left | down | up =>
      refine ⟨_, _, _, rfl, ?_⟩
      split_ifs <;> decide
  | set | unlock => exact ⟨_, _, _, rfl, le_rfl⟩
  | _ => cases within

theorem code_held {thread : Thread} {here : Local thread} (within : inside thread here = true) :
    ∃ action there after,
      code blocks setup thread here shared input = some (action, there, after) ∧
        held thread there + 1 ≤ held thread here := by
  cases thread with
  | rtc => exact rtc_held within
  | keyboard => exact keyboard_held within
  | tux => exact tux_held within

theorem held_le {thread : Thread} (here : Local thread) : held thread here ≤ 8 := by
  cases thread with
  | rtc =>
      obtain ⟨place, _, _, _⟩ := here
      cases place <;> simp [held, RtcPlace.held]
  | keyboard =>
      obtain ⟨place, _⟩ := here
      cases place <;> simp [held, KeyboardPlace.held]
  | tux => cases here <;> simp [held, TuxLocal.held]

/-- Only `rtc_thread` changes whether buttons are pressed, and it signals what it has set. -/
theorem rtc_signals {here there : RtcLocal}
    (coded : rtcCode blocks setup here shared input = some (action, there, after)) :
    action ≠ .wait ∧ (action ≠ .signal → after.buttonsPressed = true →
      (shared.buttonsPressed = true → 0 < here.place.signals) → 0 < there.place.signals) := by
  obtain ⟨place, level, ticks, session⟩ := here
  unfold rtcCode at coded
  cases place with
  | prepare =>
      obtain ⟨prepared, _, same⟩ := Option.map_eq_some_iff.1 coded
      cases same
      exact ⟨nofun, fun _ set signals => absurd (signals set) (lt_irrefl 0)⟩
  | begin game =>
      obtain ⟨next, _, same⟩ := Option.map_eq_some_iff.1 coded
      cases same
      exact ⟨nofun, fun _ set signals => absurd (signals set) (lt_irrefl 0)⟩
  | draw =>
      obtain ⟨next, _, same⟩ := Option.map_eq_some_iff.1 coded
      cases same
      exact ⟨nofun, fun _ set signals => absurd (signals set) (lt_irrefl 0)⟩
  | setPressed | unlockPressed | lockSignal =>
      cases coded
      exact ⟨nofun, fun _ _ _ => Nat.succ_pos _⟩
  | testSignal =>
      cases coded
      split_ifs with set
      · exact ⟨nofun, fun quiet => absurd rfl quiet⟩
      · exact ⟨nofun, fun _ pressed => absurd pressed set⟩
  | done => cases coded
  | _ =>
      dsimp only at coded
      try split_ifs at coded
      all_goals cases coded
      all_goals exact ⟨nofun, fun _ set signals => absurd (signals set) (lt_irrefl 0)⟩

/-- On the way to its signal `rtc_thread` does not change what it signals. -/
theorem rtc_nears {here there : RtcLocal}
    (coded : rtcCode blocks setup here shared input = some (action, there, after))
    (near : 0 < here.place.signals) :
    after.buttonsPressed = shared.buttonsPressed ∧
      there.place.signals + 1 ≤ here.place.signals := by
  obtain ⟨place, level, ticks, session⟩ := here
  unfold rtcCode at coded
  cases place with
  | unlockPressed | lockSignal | testSignal =>
      cases coded
      exact ⟨rfl, le_rfl⟩
  | _ => cases near

theorem keyboard_pressed {here there : KeyboardLocal}
    (coded : keyboardCode here shared input = some (action, there, after)) :
    action ≠ .wait ∧ after.buttonsPressed = shared.buttonsPressed := by
  obtain ⟨place, state⟩ := here
  unfold keyboardCode at coded
  cases place with
  | done => cases coded
  | getc =>
      dsimp only at coded
      split_ifs at coded
      all_goals cases coded
      all_goals exact ⟨nofun, rfl⟩
  | _ =>
      cases coded
      exact ⟨nofun, rfl⟩

/-- The controller's thread waits only when no button is pressed. -/
theorem tux_waits {here there : TuxLocal}
    (coded : tuxCode here shared = some (action, there, after)) (waits : action = .wait) :
    there = .relock ∧ after.buttonsPressed = false := by
  unfold tuxCode at coded
  subst waits
  cases here with
  | done => cases coded
  | test =>
      dsimp only at coded
      split_ifs at coded with set
      · cases coded
      · cases coded
        exact ⟨rfl, Bool.eq_false_of_not_eq_true set⟩
  | _ => cases coded

end

/-- Only the controller's thread waits, and while it waits a button that is pressed is about to be
signalled. -/
structure Waking (state : State Thread Local Shared) : Prop where
  owned : Owned inside state
  sleeper : ∀ thread, state.asleep thread = true → thread = .tux ∧ state.locals .tux = .relock
  pressed : state.asleep .tux = true → state.shared.buttonsPressed = true →
    0 < (state.locals .rtc).place.signals

section
variable {blocks : Blocks} {setup : Nat → StatusSetup}
variable {state next final : State Thread Local Shared} {action : Action} {input : Input}
variable {thread : Thread}

theorem Waking.turn (waking : Waking state)
    (turn : Turned (code blocks setup) state thread input action next) : Waking next := by
  refine ⟨waking.owned.turn (disciplined blocks setup) turn, fun other sleeps => ?_,
    fun sleeps set => ?_⟩
  · obtain ⟨_, before | ⟨waits, same⟩⟩ := turn.effect.sleeper sleeps
    · obtain ⟨rfl, place⟩ := waking.sleeper other before
      have apart : thread ≠ .tux := by
        rintro rfl
        cases turn.awake.symm.trans before
      exact ⟨rfl, (turn.others .tux (Ne.symm apart)).trans place⟩
    · subst same
      cases other with
      | rtc => exact absurd waits (rtc_signals turn.coded).1
      | keyboard => exact absurd waits (keyboard_pressed turn.coded).1
      | tux => exact ⟨rfl, (tux_waits turn.coded waits).1⟩
  · obtain ⟨quiet, before | ⟨waits, same⟩⟩ := turn.effect.sleeper sleeps
    · cases thread with
      | rtc => exact (rtc_signals turn.coded).2 quiet set (waking.pressed before)
      | keyboard =>
          rw [(keyboard_pressed turn.coded).2] at set
          rw [turn.others .rtc (by decide)]
          exact waking.pressed before set
      | tux => cases turn.awake.symm.trans before
    · subst same
      cases (tux_waits turn.coded waits).2.symm.trans set

theorem Waking.step {event : Event Thread Input} (waking : Waking state)
    (stepped : Monitor.step (code blocks setup) state event = .ok next) : Waking next := by
  cases event with
  | turn thread input =>
      obtain ⟨action, turn⟩ := turned stepped
      exact waking.turn turn
  | wake thread =>
      cases stepped
      have earlier {other : Thread}
          (sleeps : Function.update state.asleep thread false other = true) :
          state.asleep other = true := by
        by_cases same : other = thread
        · subst same
          rw [Function.update_self] at sleeps
          cases sleeps
        · rw [Function.update_of_ne same] at sleeps
          exact sleeps
      exact ⟨waking.owned, fun other sleeps => waking.sleeper other (earlier sleeps),
        fun sleeps => waking.pressed (earlier sleeps)⟩

theorem start_waking (shared : Shared) (session : Session) : Waking (start shared session) :=
  ⟨start_owned shared session, fun _ sleeps => absurd sleeps Bool.false_ne_true,
    fun sleeps => absurd sleeps Bool.false_ne_true⟩

theorem waking_run {shared : Shared} {session : Session} {events : List (Event Thread Input)}
    (ran : run (Monitor.step (code blocks setup)) (start shared session) events = .ok state) :
    Waking state :=
  run_invariant Waking (fun _ _ _ waking _ stepped => waking.step stepped)
    (start_waking shared session) (along_true _ _ events) ran

/-- While a thread has the lock, each of its turns comes nearer to the unlock. -/
theorem turns_held (owned : Owned inside state) {later : List (Event Thread Input)}
    (goes : run (Monitor.step (code blocks setup)) state later = .ok final)
    (along : Along (fun state _ => state.owner = some thread) (Monitor.step (code blocks setup))
      state later) :
    turns thread later + held thread (final.locals thread) ≤
      held thread (state.locals thread) := by
  refine @turns_le Thread _ Local Shared Input (code blocks setup) state thread
    (Owned inside) (fun state => state.owner = some thread)
    (fun state => held thread (state.locals thread)) ?_ ?_ ?_ ?_ later final owned along goes
  · exact fun state event next owned _ stepped => owned.step (disciplined blocks setup) stepped
  · intro state action input next owned holds turn
    obtain ⟨_, there, after, coded, lower⟩ := @code_held blocks setup state.shared input thread
      (state.locals thread) ((owned thread).2 holds)
    cases coded.symm.trans turn.coded
    exact lower
  · intro state other action input next apart turn
    exact congrArg (held thread) (turn.others thread (Ne.symm apart))
  · intro state other next stepped
    cases stepped
    rfl

/-- A thread that has the lock does not wait. -/
theorem Waking.awake (waking : Waking state)
    (within : inside thread (state.locals thread) = true) : state.asleep thread = false := by
  refine Bool.eq_false_of_not_eq_true fun sleeps => ?_
  obtain ⟨rfl, place⟩ := waking.sleeper thread sleeps
  rw [place] at within
  cases within

/-- The thread that has the lock is alone inside and never blocked, and it gives the lock back
after at most eight of its own steps, however the other threads interleave with them. -/
theorem threads_release {shared : Shared} {session : Session}
    {events : List (Event Thread Input)}
    (ran : run (Monitor.step (code blocks setup)) (start shared session) events = .ok state)
    (holds : state.owner = some thread) :
    (∀ other, inside other (state.locals other) = true → other = thread) ∧
      (∀ input, ∃ next, Monitor.step (code blocks setup) state (.turn thread input) = .ok next) ∧
        ∀ later final, run (Monitor.step (code blocks setup)) state later = .ok final →
          Along (fun state _ => state.owner = some thread) (Monitor.step (code blocks setup)) state
            later → turns thread later ≤ 8 := by
  have waking := waking_run ran
  have within := (waking.owned thread).2 holds
  refine ⟨fun other there => waking.owned.exclusive there within, fun input => ?_,
    fun later final goes along => ?_⟩
  · obtain ⟨action, there, after, coded, _⟩ := @code_held blocks setup state.shared input thread
      (state.locals thread) within
    refine waking.owned.advances (disciplined blocks setup) within (waking.awake within) ?_
    rw [coded]
    exact Option.some_ne_none _
  · have bound := turns_held waking.owned goes along
    have few := held_le (state.locals thread)
    omega

/-- What `rtc_thread` does between the lock of a tick and its unlock. -/
def deciding : List (Event Thread Input) := List.replicate 7 (.turn .rtc (given 0))

theorem threads_release_deciding : ∃ state final,
    run (Monitor.step (code maskedBlocks fun _ => statusSetup)) (start fresh (newSession newGame))
        (events.take 29) = .ok state ∧ state.owner = some .rtc ∧
      run (Monitor.step (code maskedBlocks fun _ => statusSetup)) state deciding = .ok final ∧
        final.owner = none ∧ turns .rtc deciding ≤ 8 := by
  have finishes : (runCheck (Monitor.step (code maskedBlocks fun _ => statusSetup))
      (start fresh (newSession newGame)) (events.take 29) fun state =>
        state.owner = some .rtc &&
          Along (fun state _ => state.owner = some .rtc)
            (Monitor.step (code maskedBlocks fun _ => statusSetup)) state deciding &&
            runCheck (Monitor.step (code maskedBlocks fun _ => statusSetup)) state deciding
              fun final => final.owner = none) = true := by decide +kernel
  obtain ⟨state, ran, passed⟩ := runCheck_sound finishes
  rw [Bool.and_eq_true, Bool.and_eq_true] at passed
  obtain ⟨⟨holds, along⟩, goes⟩ := passed
  obtain ⟨final, goes, free⟩ := runCheck_sound goes
  exact ⟨state, final, ran, of_decide_eq_true holds, goes, of_decide_eq_true free,
    (threads_release ran (of_decide_eq_true holds)).2.2 deciding final goes
      (of_decide_eq_true along)⟩

/-- While the controller's thread waits, a button that is pressed stays so until the signal. -/
theorem Waking.keeps (waking : Waking state) (waits : state.asleep .tux = true)
    (set : state.shared.buttonsPressed = true)
    (turn : Turned (code blocks setup) state thread input action next) :
    next.shared.buttonsPressed = true := by
  cases thread with
  | rtc => exact (rtc_nears turn.coded (waking.pressed waits set)).1.trans set
  | keyboard => exact (keyboard_pressed turn.coded).2.trans set
  | tux => cases turn.awake.symm.trans waits

/-- A button that is pressed while the controller's thread waits is not lost: `rtc_thread` wakes it
after at most three of its own steps. -/
theorem threads_signal {shared : Shared} {session : Session}
    {events : List (Event Thread Input)}
    (ran : run (Monitor.step (code blocks setup)) (start shared session) events = .ok state)
    (set : state.shared.buttonsPressed = true) :
    ∀ later final, run (Monitor.step (code blocks setup)) state later = .ok final →
      Along (fun state _ => state.asleep .tux = true) (Monitor.step (code blocks setup)) state
        later → turns .rtc later ≤ 3 := by
  intro later final goes along
  have bound : turns .rtc later + (final.locals .rtc).place.signals ≤
      (state.locals .rtc).place.signals := by
    refine @turns_le Thread _ Local Shared Input (code blocks setup) state .rtc
      (fun state => Waking state ∧ state.shared.buttonsPressed = true)
      (fun state => state.asleep .tux = true)
      (fun state => (state.locals .rtc).place.signals) ?_ ?_ ?_ ?_ later final
      ⟨waking_run ran, set⟩ along goes
    · rintro state event next ⟨waking, set⟩ waits stepped
      refine ⟨waking.step stepped, ?_⟩
      cases event with
      | wake other =>
          cases stepped
          exact set
      | turn other input =>
          obtain ⟨action, turn⟩ := turned stepped
          exact waking.keeps waits set turn
    · rintro state action input next ⟨waking, set⟩ waits turn
      exact (rtc_nears turn.coded (waking.pressed waits set)).2
    · intro state other action input next apart turn
      rw [turn.others .rtc (Ne.symm apart)]
    · intro state other next stepped
      cases stepped
      rfl
  have few : (state.locals .rtc).place.signals ≤ 3 := by
    generalize (state.locals .rtc).place = place
    cases place <;> simp [RtcPlace.signals]
  omega

/-- A button is pressed while the controller's thread waits. -/
def pressing : List (Event Thread Input) :=
  events.take 11 ++ List.replicate 4 (.turn .rtc { given 0 with polled := 0x80 })

def signalling : List (Event Thread Input) := List.replicate 3 (.turn .rtc (given 0))

theorem threads_signal_signalling : ∃ state final,
    run (Monitor.step (code maskedBlocks fun _ => statusSetup)) (start fresh (newSession newGame))
        pressing = .ok state ∧ state.asleep .tux = true ∧
      run (Monitor.step (code maskedBlocks fun _ => statusSetup)) state signalling = .ok final ∧
        final.asleep .tux = false ∧ turns .rtc signalling ≤ 3 := by
  have finishes : (runCheck (Monitor.step (code maskedBlocks fun _ => statusSetup))
      (start fresh (newSession newGame)) pressing fun state =>
        state.asleep .tux && state.shared.buttonsPressed &&
          Along (fun state _ => state.asleep .tux = true)
            (Monitor.step (code maskedBlocks fun _ => statusSetup)) state signalling &&
            runCheck (Monitor.step (code maskedBlocks fun _ => statusSetup)) state signalling
              fun final => !final.asleep .tux) = true := by decide +kernel
  obtain ⟨state, ran, passed⟩ := runCheck_sound finishes
  rw [Bool.and_eq_true, Bool.and_eq_true, Bool.and_eq_true] at passed
  obtain ⟨⟨⟨waits, set⟩, along⟩, goes⟩ := passed
  obtain ⟨final, goes, awake⟩ := runCheck_sound goes
  rw [Bool.not_eq_true'] at awake
  exact ⟨state, final, ran, waits, goes, awake,
    threads_signal ran set signalling final goes (of_decide_eq_true along)⟩

end

end ComputerSystems.Mp2.Threads
