import ComputerSystems.Proof.Tux.Commands

namespace ComputerSystems.Tux
open Library

namespace Device
variable {source : Source} {device : Device}

theorem receive_append (first second : List UInt8) :
    device.receive source (first ++ second) =
      (device.receive source first).receive source second :=
  List.foldl_append

/-- The controller takes the rest of a command for one command. No shorter beginning is one. -/
theorem receive_rest {begun rest : List UInt8} (unfinished : device.unfinished = begun)
    (own : begun = [] ∨ device.source = source) (coded : begun ++ rest ∈ commands)
    (more : rest ≠ []) :
    device.receive source rest =
      ⟨[], source, device.received + rest.length, device.pending ++
        [⟨source, (begun ++ rest).headD 0, device.received + rest.length⟩]⟩ := by
  induction rest generalizing begun device with
  | nil => exact absurd rfl more
  | cons byte rest ih =>
      have origin : (if device.unfinished = [] then source else device.source) = source := by
        rw [unfinished]
        rcases own with empty | same
        · rw [if_pos empty]
        · rw [same, ite_self]
      rw [receive, List.foldl_cons, receiveByte, origin, unfinished]
      by_cases last : rest = []
      · subst last
        rw [if_pos ((isCommand_iff _).2 coded)]
        rfl
      · have early : begun ++ [byte] ∉ commands := by
          intro complete
          apply last
          have whole := commands_prefixCode.unique _ complete _ coded ⟨rest, by simp⟩
          simpa using whole
        rw [if_neg (mt (isCommand_iff _).1 early), if_pos (ledSet_head coded last)]
        have split : begun ++ byte :: rest = begun ++ [byte] ++ rest := by simp
        rw [split] at coded ⊢
        rw [List.length_cons, Nat.add_comm rest.length, ← Nat.add_assoc]
        exact ih rfl (.inr rfl) coded last

/-- The controller takes a command for one command. -/
theorem receive_command {word : List UInt8} (aligned : device.unfinished = [])
    (coded : word ∈ commands) :
    device.receive source word =
      ⟨[], source, device.received + word.length,
        device.pending ++ [⟨source, word.headD 0, device.received + word.length⟩]⟩ := by
  apply receive_rest aligned (.inl rfl) coded
  rintro rfl
  exact commands_prefixCode.nonempty coded

/-- Zeros start no command. -/
theorem receive_zeros (aligned : device.unfinished = []) (count : Nat) :
    (device.receive source (List.replicate count 0)).unfinished = [] ∧
      (device.receive source (List.replicate count 0)).pending = device.pending := by
  induction count generalizing device with
  | zero => exact ⟨aligned, rfl⟩
  | succ count ih =>
      have first : device.receiveByte source 0 =
          ⟨[], source, device.received + 1, device.pending⟩ := by
        rw [receiveByte, aligned]
        rfl
      rw [List.replicate_succ, receive, List.foldl_cons, first]
      exact ih rfl

/-- The controller is between two commands again, and all new commands come from one part of the
driver. -/
structure Extends (source : Source) (device next : Device) : Prop where
  aligned : next.unfinished = []
  pending : ∃ new, next.pending = device.pending ++ new ∧ ∀ command ∈ new, command.source = source

theorem Extends.refl (source : Source) (aligned : device.unfinished = []) :
    Extends source device device where
  aligned := aligned
  pending := ⟨[], (List.append_nil _).symm, by simp⟩

theorem Extends.trans {middle next : Device} (first : Extends source device middle)
    (second : Extends source middle next) : Extends source device next where
  aligned := second.aligned
  pending := by
    obtain ⟨early, before, own⟩ := first.pending
    obtain ⟨late, after, also⟩ := second.pending
    refine ⟨early ++ late, ?_, fun command member => ?_⟩
    · rw [after, before, List.append_assoc]
    · rcases List.mem_append.1 member with inEarly | inLate
      · exact own command inEarly
      · exact also command inLate

/-- A command is taken whole or not at all. -/
theorem extends_command {word : List UInt8} (aligned : device.unfinished = [])
    (coded : word ∈ commands) {count : Nat} (whole : count = 0 ∨ word.length ≤ count) :
    Extends source device (device.receive source (word.take count)) := by
  rcases whole with rfl | all
  · exact Extends.refl source aligned
  · rw [List.take_of_length_le all, receive_command aligned coded]
    exact ⟨rfl, _, rfl, by simp⟩

theorem extends_opcode {opcode : UInt8} (aligned : device.unfinished = [])
    (coded : [opcode] ∈ commands) (count : Nat) :
    Extends source device (device.receive source ([opcode].take count)) :=
  extends_command aligned coded (Nat.eq_zero_or_pos count)

theorem extends_zeros (aligned : device.unfinished = []) (count : Nat) :
    Extends source device (device.receive source (List.take count [0, 0, 0, 0, 0, 0])) := by
  have zeros : (List.replicate 6 (0 : UInt8)).take count = List.replicate (min count 6) 0 :=
    List.take_replicate
  obtain ⟨between, same⟩ := @receive_zeros source device aligned (min count 6)
  change Extends source device (device.receive source ((List.replicate 6 0).take count))
  rw [zeros]
  exact ⟨between, [], by rw [same, List.append_nil], by simp⟩

end Device

namespace Throttle

/-- The unacknowledged commands of `TUX_SET_LED`, and its calls that are past the spam test but
not yet past their put. -/
def outstanding (state : Throttle) : Nat :=
  state.device.pending.countP Command.isLedUpdate + state.calls.count .putBuffer

/-- With no call in progress, the throttle waits for an acknowledgment that is still to come, and at
most one command of `TUX_SET_LED` is unacknowledged. -/
def Throttled (state : Throttle) : Prop :=
  state.calls = [] → (state.driver.spam = true → state.device.pending ≠ []) ∧
    state.device.pending.countP Command.isLedUpdate ≤ 1

/-- The spam test of a call does not pass while another call is between its own test and its write
to `spam`. The buffer takes an LED command whole or, if a command is pending, not at all. -/
def CallUndisturbed (state : Throttle) : Call → Prop
  | .testSpam _ =>
      state.driver.spam = false → .putBuffer ∉ state.calls ∧ .setSpam ∉ state.calls
  | .putBuffer => TakesWhole state.driver.tx.used ∧
      (state.driver.tx.used + 1 = tuxctlBufsize → state.device.pending ≠ [])
  | _ => True

/-- An acknowledgment between the put of a call and its write to `spam` is not for the last pending
command. While a command of `TUX_SET_LED` is pending, an acknowledgment is for one of these and
comes after the write to `spam`. A reset restores an LED command whole or not at all. -/
def Undisturbed (state : Throttle) : ThrottleEvent → Prop
  | .step index _ => ∀ call ∈ state.calls[index]?, state.CallUndisturbed call
  | .ack index => (.setSpam ∈ state.calls → 2 ≤ state.device.pending.length) ∧
      ((∃ command ∈ state.device.pending, command.isLedUpdate = true) →
        .setSpam ∉ state.calls ∧
          ∀ command ∈ state.device.pending[index]?, command.isLedUpdate = true)
  | .reset rooms => state.driver.buffer = [0, 0, 0, 0, 0, 0] ∨
      TakesWhole (usedAfterByte (usedAfterByte state.driver.tx.used (rooms 0)) (rooms 1))
  | _ => True

instance : DecidablePred Throttled := fun state =>
  inferInstanceAs (Decidable (state.calls = [] → _ ∧ _))

instance (used : Nat) : Decidable (TakesWhole used) := inferInstanceAs (Decidable (_ ∨ _))

instance (state : Throttle) (call : Call) : Decidable (state.CallUndisturbed call) := by
  cases call <;> unfold CallUndisturbed <;> infer_instance

instance (state : Throttle) (event : ThrottleEvent) : Decidable (Undisturbed state event) := by
  cases event <;> unfold Undisturbed <;> infer_instance

/-- What keeps the throttle right through the steps of the calls. -/
structure Orderly (state : Throttle) : Prop where
  aligned : state.device.unfinished = []
  saved : Saved state.driver
  prepared : .putBuffer ∈ state.calls → ∃ arg, state.driver.buffer = ledBuffer arg
  busy : state.driver.spam = true → state.device.pending ≠ []
  awaited : .setSpam ∈ state.calls → state.device.pending ≠ []
  single : state.outstanding ≤ 1
  shut : 0 < state.device.pending.countP Command.isLedUpdate →
    state.driver.spam = true ∨ .setSpam ∈ state.calls

theorem Orderly.throttled {state : Throttle} (orderly : Orderly state) : Throttled state :=
  fun _ => ⟨orderly.busy, (Nat.le_add_right _ _).trans orderly.single⟩

theorem orderly_init (slots : Nat → UInt8) : Orderly (init slots) where
  aligned := rfl
  saved := .inl rfl
  prepared := by simp [init]
  busy := by simp [init, Driver.init]
  awaited := by simp [init]
  single := Nat.zero_le 1
  shut := by simp [init, Device.init]

section
variable {state next : Throttle}

/-- A step keeps the throttle right when it adds only commands of others than `TUX_SET_LED` and no
call that is about to put or to set `spam`. -/
theorem Orderly.extend (orderly : Orderly state) {source : Source} (other : source ≠ .tuxSetLed)
    (buffer : next.driver.buffer = state.driver.buffer)
    (spam : next.driver.spam = state.driver.spam)
    (device : state.device.Extends source next.device)
    (puts : next.calls.count .putBuffer ≤ state.calls.count .putBuffer)
    (sets : next.calls.count .setSpam = state.calls.count .setSpam) : Orderly next := by
  obtain ⟨new, pending, own⟩ := device.pending
  have nonempty (some : state.device.pending ≠ []) : next.device.pending ≠ [] := by
    rw [pending]
    exact List.append_ne_nil_of_left_ne_nil some new
  have none : new.countP Command.isLedUpdate = 0 := by
    rw [List.countP_eq_zero]
    intro command member
    simp [Command.isLedUpdate, own command member, other]
  refine ⟨device.aligned, ?_, ?_, ?_, ?_, ?_, ?_⟩
  · rw [Saved, buffer]
    exact orderly.saved
  · intro member
    rw [buffer]
    exact orderly.prepared (mem_of_count_le _ puts member)
  · rw [spam]
    exact fun set => nonempty (orderly.busy set)
  · intro member
    exact nonempty (orderly.awaited (mem_of_count_le _ sets.le member))
  · have single := orderly.single
    unfold outstanding at single ⊢
    rw [pending, List.countP_append, none]
    omega
  · rw [pending, List.countP_append, none, Nat.add_zero, spam]
    intro waits
    exact (orderly.shut waits).imp_right (mem_of_count_le _ sets.ge)

theorem send_put (source : Source) (buf : List UInt8) (room : Int) :
    (state.send source (state.driver.put buf room)).device =
      state.device.receive source (buf.take state.driver.tx.room) := by
  rw [send, put_entered]
  dsimp only
  rw [List.drop_left]

theorem handle_ack (driver : Driver) (rooms : Fin 3 → Int) :
    driver.tuxctlHandlePacket ackPacket rooms = { driver with spam := false } := rfl

/-- A reset enables the buttons and the LEDs and restores the LEDs. -/
theorem handle_reset (driver : Driver) (rooms : Fin 3 → Int) :
    driver.tuxctlHandlePacket resetPacket rooms =
      ((driver.put [mtcpBiocOn] (rooms 0)).put [mtcpLedUsr] (rooms 1)).put driver.buffer
        (rooms 2) := rfl

/-- The steps of `TUX_INIT`. -/
theorem Orderly.putOpcode (orderly : Orderly state) {opcode : UInt8}
    (coded : [opcode] ∈ commands) (room : Int) {calls : List Call}
    (puts : calls.count .putBuffer ≤ state.calls.count .putBuffer)
    (sets : calls.count .setSpam = state.calls.count .setSpam) :
    Orderly { state.send .tuxInit (state.driver.put [opcode] room) with calls := calls } := by
  have other : Source.tuxInit ≠ .tuxSetLed := by decide
  dsimp only
  refine orderly.extend other rfl rfl ?_ puts sets
  dsimp only
  rw [send_put]
  exact Device.extends_opcode orderly.aligned coded _

/-- Where `spam` is clear and no call is past its test, nothing of `TUX_SET_LED` is outstanding. -/
theorem Orderly.outstanding_eq (orderly : Orderly state) (free : state.driver.spam = false)
    (alone : .putBuffer ∉ state.calls ∧ .setSpam ∉ state.calls) : state.outstanding = 0 := by
  have none : state.device.pending.countP Command.isLedUpdate = 0 := by
    by_contra some
    rcases orderly.shut (Nat.pos_of_ne_zero some) with set | waits
    · rw [free] at set
      cases set
    · exact alone.2 waits
  rw [outstanding, none, List.count_eq_zero.2 alone.1]

/-- The spam test of `TUX_SET_LED` passes. -/
theorem Orderly.testSpam (orderly : Orderly state) (arg : BitVec 32) {calls : List Call}
    (none : state.outstanding = 0)
    (puts : calls.count .putBuffer ≤ state.calls.count .putBuffer + 1)
    (sets : calls.count .setSpam ≤ state.calls.count .setSpam) :
    Orderly ⟨{ state.driver with buffer := ledBuffer arg }, state.device, calls⟩ where
  aligned := orderly.aligned
  saved := .inr ⟨arg, rfl⟩
  prepared := fun _ => ⟨arg, rfl⟩
  busy := orderly.busy
  awaited := fun member => orderly.awaited (mem_of_count_le _ sets member)
  single := by
    unfold outstanding at none ⊢
    dsimp only
    omega
  shut := by
    unfold outstanding at none
    dsimp only
    omega

/-- The put of `TUX_SET_LED`. -/
theorem Orderly.putBuffer (orderly : Orderly state) (room : Int) {calls : List Call}
    (whole : TakesWhole state.driver.tx.used)
    (more : state.driver.tx.used + 1 = tuxctlBufsize → state.device.pending ≠ [])
    (member : .putBuffer ∈ state.calls)
    (puts : calls.count .putBuffer + 1 = state.calls.count .putBuffer)
    (sets : .setSpam ∈ calls) :
    Orderly { state.send .tuxSetLed (state.driver.put state.driver.buffer room) with
      calls := calls } := by
  obtain ⟨arg, prepared⟩ := orderly.prepared member
  have single := orderly.single
  unfold outstanding at single
  have received : ∃ new, ((state.send .tuxSetLed
      (state.driver.put state.driver.buffer room)).device.unfinished = [] ∧
      (state.send .tuxSetLed (state.driver.put state.driver.buffer room)).device.pending =
        state.device.pending ++ new) ∧ new.length ≤ 1 ∧ state.device.pending ++ new ≠ [] := by
    rw [send_put, prepared]
    rcases (room_whole_iff state.driver).2 whole with full | space
    · rw [full]
      have nonempty := more ((room_full_iff state.driver).1 full)
      exact ⟨[], ⟨orderly.aligned, (List.append_nil _).symm⟩, by simp, by simpa using nonempty⟩
    · rw [List.take_of_length_le space, Device.receive_command orderly.aligned (ledBuffer_mem arg)]
      exact ⟨_, ⟨rfl, rfl⟩, by simp, by simp⟩
  obtain ⟨new, ⟨aligned, pending⟩, few, nonempty⟩ := received
  refine ⟨aligned, orderly.saved, fun _ => ⟨arg, prepared⟩, ?_, ?_, ?_, fun _ => .inr sets⟩
  · dsimp only
    rw [pending]
    exact fun _ => nonempty
  · dsimp only
    rw [pending]
    exact fun _ => nonempty
  · have most : new.countP Command.isLedUpdate ≤ new.length := List.countP_le_length
    unfold outstanding
    dsimp only
    rw [pending, List.countP_append]
    omega

/-- The write to `spam` of `TUX_SET_LED`. -/
theorem Orderly.setSpam (orderly : Orderly state) {calls : List Call}
    (member : .setSpam ∈ state.calls)
    (puts : calls.count .putBuffer ≤ state.calls.count .putBuffer) :
    Orderly ⟨{ state.driver with spam := true }, state.device, calls⟩ where
  aligned := orderly.aligned
  saved := orderly.saved
  prepared := fun own => orderly.prepared (mem_of_count_le _ puts own)
  busy := fun _ => orderly.awaited member
  awaited := fun _ => orderly.awaited member
  single := by
    have single := orderly.single
    unfold outstanding at single ⊢
    dsimp only
    omega
  shut := fun _ => .inl rfl

theorem Orderly.callStep (orderly : Orderly state) {index : Nat} {room : Int} {call : Call}
    (found : state.calls[index]? = some call) (allowed : state.CallUndisturbed call) :
    Orderly { (state.callStep room call).2 with
      calls := replaceCall state.calls index (state.callStep room call).1 } := by
  have member := List.mem_of_getElem? found
  have puts (next : Option Call) := count_replaceCall found next .putBuffer
  have sets (next : Option Call) := count_replaceCall found next .setSpam
  cases call with
  | putBioc =>
      dsimp only [Throttle.callStep]
      apply orderly.putOpcode (.inl rfl) room
      · simpa using (puts (some .putUsr)).le
      · simpa using sets (some .putUsr)
  | putUsr =>
      dsimp only [Throttle.callStep]
      apply orderly.putOpcode (.inr (.inl rfl)) room
      · simpa using (puts none).le
      · simpa using sets none
  | testSpam arg =>
      rw [Throttle.callStep]
      split
      next =>
        have other : Source.tuxInit ≠ .tuxSetLed := by decide
        dsimp only
        refine orderly.extend other rfl rfl (Device.Extends.refl _ orderly.aligned) ?_ ?_
        · simpa using (puts none).le
        · simpa using sets none
      next free =>
        rw [Bool.not_eq_true] at free
        dsimp only
        apply orderly.testSpam arg (orderly.outstanding_eq free (allowed free))
        · simpa using (puts (some .putBuffer)).le
        · simpa using (sets (some .putBuffer)).le
  | putBuffer =>
      dsimp only [Throttle.callStep]
      apply orderly.putBuffer room allowed.1 allowed.2 member
      · simpa using puts (some .setSpam)
      · rw [replaceCall]
        simp
  | setSpam =>
      dsimp only [Throttle.callStep]
      apply orderly.setSpam member
      simpa using (puts none).le

/-- An acknowledgment clears `spam`. -/
theorem Orderly.ack (orderly : Orderly state) {index : Nat}
    (allowed : Undisturbed state (.ack index))
    (inside : index < state.device.pending.length) :
    Orderly ⟨state.driver.tuxctlHandlePacket ackPacket fun _ => 0,
      { state.device with pending := state.device.pending.eraseIdx index }, state.calls⟩ where
  aligned := orderly.aligned
  saved := orderly.saved
  prepared := orderly.prepared
  busy := by simp [handle_ack]
  awaited := by
    intro member
    have more := allowed.1 member
    rw [← List.length_pos_iff, List.length_eraseIdx_of_lt inside]
    omega
  single := by
    have fewer : (state.device.pending.eraseIdx index).countP Command.isLedUpdate ≤
        state.device.pending.countP Command.isLedUpdate :=
      (List.eraseIdx_sublist state.device.pending index).countP_le
    have single := orderly.single
    unfold outstanding at single ⊢
    dsimp only
    omega
  shut := by
    intro waits
    change 0 < (state.device.pending.eraseIdx index).countP Command.isLedUpdate at waits
    have rest := ((List.getElem_cons_eraseIdx_perm inside).countP_eq Command.isLedUpdate).symm
    rw [List.countP_cons] at rest
    have single := orderly.single
    unfold outstanding at single
    have some : 0 < state.device.pending.countP Command.isLedUpdate := by omega
    obtain ⟨command, member, update⟩ := List.countP_pos_iff.1 some
    have own := (allowed.2 ⟨command, member, update⟩).2 state.device.pending[index]
      (List.getElem?_eq_getElem inside)
    rw [if_pos own] at rest
    omega

theorem Orderly.reset (orderly : Orderly state) (rooms : Fin 3 → Int)
    (allowed : Undisturbed state (.reset rooms)) :
    Orderly (state.send .reset (state.driver.tuxctlHandlePacket resetPacket rooms)) := by
  have other : Source.reset ≠ .tuxSetLed := by decide
  refine orderly.extend other rfl rfl ?_ (Nat.le_refl _) rfl
  let first := state.driver.put [mtcpBiocOn] (rooms 0)
  let second := first.put [mtcpLedUsr] (rooms 1)
  have entered : (state.driver.tuxctlHandlePacket resetPacket rooms).entered =
      state.driver.entered ++ ([mtcpBiocOn].take state.driver.tx.room ++
        [mtcpLedUsr].take first.tx.room ++ state.driver.buffer.take second.tx.room) := by
    rw [handle_reset, put_entered, put_entered, put_entered]
    simp only [List.append_assoc]
    rfl
  rw [send, entered]
  dsimp only
  rw [List.drop_left, Device.receive_append, Device.receive_append]
  have bioc : state.device.Extends .reset _ :=
    Device.extends_opcode orderly.aligned (.inl rfl) state.driver.tx.room
  have usr : Device.Extends .reset _ _ :=
    Device.extends_opcode bioc.aligned (.inr (.inl rfl)) first.tx.room
  apply (bioc.trans usr).trans
  rcases orderly.saved with zeros | ⟨arg, command⟩
  · rw [zeros]
    exact Device.extends_zeros usr.aligned _
  · rw [command]
    apply Device.extends_command usr.aligned (ledBuffer_mem arg)
    change second.tx.room = 0 ∨ 6 ≤ second.tx.room
    rw [room_whole_iff, show second.tx.used = _ from enabled_used (rooms 0) (rooms 1)]
    apply allowed.resolve_left
    rw [command]
    exact ledBuffer_ne_zeros arg

theorem Orderly.step {event : ThrottleEvent} (orderly : Orderly state)
    (allowed : Undisturbed state event) (stepped : throttleStep state event = .ok next) :
    Orderly next := by
  have other : Source.tuxInit ≠ .tuxSetLed := by decide
  have same := Device.Extends.refl .tuxInit orderly.aligned
  cases event with
  | tuxInit =>
      cases stepped
      refine orderly.extend other rfl rfl same ?_ ?_
      · simp
      · simp
  | tuxSetLed arg =>
      cases stepped
      refine orderly.extend other rfl rfl same ?_ ?_
      · simp
      · simp
  | step index room =>
      rw [throttleStep] at stepped
      split at stepped
      next => cases stepped
      next call found =>
        cases stepped
        exact orderly.callStep found (allowed call found)
  | ack index =>
      rw [throttleStep] at stepped
      split at stepped
      next => cases stepped
      next command found =>
        split at stepped
        next =>
          cases stepped
          exact orderly.ack allowed (List.getElem?_eq_some_iff.1 found).1
        next => cases stepped
  | reset rooms =>
      cases stepped
      exact orderly.reset rooms allowed
  | wakeup room =>
      cases stepped
      exact orderly.extend other rfl rfl same (Nat.le_refl _) rfl

end

section
variable (driver : Driver) (device : Device) (calls : List Call)

/-- The call that started last takes a step. -/
theorem step_last (call : Call) (room : Int) :
    throttleStep ⟨driver, device, calls ++ [call]⟩ (.step calls.length room) =
      .ok { (callStep room ⟨driver, device, calls ++ [call]⟩ call).2 with
        calls := calls ++ (callStep room ⟨driver, device, calls ++ [call]⟩ call).1.toList } := by
  rw [throttleStep, List.getElem?_concat_length]
  simp [replaceCall]

theorem step_finish {call : Call} {room : Int}
    (finished : (callStep room ⟨driver, device, calls ++ [call]⟩ call).1 = none) :
    throttleStep ⟨driver, device, calls ++ [call]⟩ (.step calls.length room) =
      .ok { (callStep room ⟨driver, device, calls ++ [call]⟩ call).2 with calls := calls } := by
  rw [step_last, finished, Option.toList_none, List.append_nil]

/-- A call of `TUX_INIT` that nothing interrupts does what `tuxctl_ioctl` does. -/
theorem tuxInit_run (biocRoom usrRoom : Int) : ∃ received,
    run throttleStep ⟨driver, device, calls⟩
        [.tuxInit, .step calls.length biocRoom, .step calls.length usrRoom] =
      .ok ⟨(tuxctlIoctl (.tuxInit biocRoom usrRoom) driver).2.2, received, calls⟩ := by
  have started : throttleStep ⟨driver, device, calls⟩ .tuxInit =
      .ok ⟨driver, device, calls ++ [.putBioc]⟩ := rfl
  have bioc := step_last driver device calls .putBioc biocRoom
  have usr (received : Device) := step_finish (driver.put [mtcpBiocOn] biocRoom) received calls
    (rfl : (callStep usrRoom ⟨_, received, _⟩ .putUsr).1 = none)
  rw [run_cons _ _ _ _ _ started, run_cons _ _ _ _ _ bioc]
  exact ⟨_, run_cons _ _ _ _ _ (usr _)⟩

/-- A call of `TUX_SET_LED` that nothing interrupts does what `tuxctl_ioctl` does. -/
theorem tuxSetLed_run (arg : BitVec 32) (room : Int) (free : driver.spam = false) : ∃ received,
    run throttleStep ⟨driver, device, calls⟩
        [.tuxSetLed arg, .step calls.length room, .step calls.length room,
          .step calls.length room] =
      .ok ⟨(tuxctlIoctl (.tuxSetLed arg room) driver).2.2, received, calls⟩ := by
  have started : throttleStep ⟨driver, device, calls⟩ (.tuxSetLed arg) =
      .ok ⟨driver, device, calls ++ [.testSpam arg]⟩ := rfl
  let prepared : Driver := { driver with buffer := ledBuffer arg }
  have passed : throttleStep ⟨driver, device, calls ++ [.testSpam arg]⟩
      (.step calls.length room) = .ok ⟨prepared, device, calls ++ [.putBuffer]⟩ := by
    rw [step_last, callStep, if_neg (by simp [free])]
    rfl
  have stored := step_last prepared device calls .putBuffer room
  have set (received : Device) := step_finish (prepared.put prepared.buffer room) received calls
    (rfl : (callStep room ⟨_, received, _⟩ .setSpam).1 = none)
  rw [tuxctlIoctl, if_neg (by simp [free]), run_cons _ _ _ _ _ started,
    run_cons _ _ _ _ _ passed, run_cons _ _ _ _ _ stored]
  exact ⟨_, run_cons _ _ _ _ _ (set _)⟩

/-- A call of `TUX_SET_LED` that finds `spam` set returns at once. -/
theorem tuxSetLed_refused (arg : BitVec 32) (room : Int) (busy : driver.spam = true) :
    run throttleStep ⟨driver, device, calls⟩ [.tuxSetLed arg, .step calls.length room] =
      .ok ⟨(tuxctlIoctl (.tuxSetLed arg room) driver).2.2, device, calls⟩ := by
  have started : throttleStep ⟨driver, device, calls⟩ (.tuxSetLed arg) =
      .ok ⟨driver, device, calls ++ [.testSpam arg]⟩ := rfl
  have refused := step_last driver device calls (.testSpam arg) room
  rw [callStep, if_pos busy, Option.toList_none, List.append_nil] at refused
  rw [tuxctlIoctl, if_pos busy, run_cons _ _ _ _ _ started]
  exact run_cons _ _ _ _ _ refused

end

/-- The throttle neither jams nor admits two commands in a run whose events do not disturb it. -/
theorem throttled_always (slots : Nat → UInt8) (events : List ThrottleEvent)
    (undisturbed : Along Undisturbed throttleStep (init slots) events) :
    Always Throttled throttleStep (init slots) events := by
  apply always_of_along Orderly _ _ (orderly_init slots) undisturbed
  · intro state event next orderly allowed stepped
    exact orderly.step allowed stepped
  · intro state orderly
    exact orderly.throttled

/-- The LEDs are set, acknowledged, and set again. -/
theorem throttled_run :
    Always Throttled throttleStep (init fun _ => 0)
      [.tuxInit, .step 0 9, .step 0 9, .ack 0, .ack 0,
        .tuxSetLed 0x0F0F1234, .step 0 9, .step 0 9, .step 0 9, .ack 0,
        .tuxSetLed 0x000F5678, .step 0 9, .step 0 9, .step 0 9] := by
  apply throttled_always
  decide +kernel

/-- An acknowledgment between the put and the write to `spam` leaves `spam` set for ever. The
acknowledgment of `TUX_INIT` lets a second command pass. -/
theorem throttle_fails :
    (¬Always Throttled throttleStep (init fun _ => 0)
      [.tuxSetLed 0x0F0F1234, .step 0 9, .step 0 9, .ack 0, .step 0 9]) ∧
    ¬Always Throttled throttleStep (init fun _ => 0)
      [.tuxInit, .step 0 9, .step 0 9, .tuxSetLed 0x0F0F1234, .step 0 9, .step 0 9, .step 0 9,
        .ack 0, .tuxSetLed 0x000F5678, .step 0 9, .step 0 9, .step 0 9] := by
  constructor
  · apply not_always_of_runCheck
    decide +kernel
  · apply not_always_of_runCheck
    decide +kernel

end Throttle

end ComputerSystems.Tux
