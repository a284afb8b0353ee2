import ComputerSystems.Construction.Kernel.Rtc
import ComputerSystems.Library.Run
import ComputerSystems.Proof.Kernel.Calls
import ComputerSystems.Proof.Kernel.DescriptorTable

namespace ComputerSystems.Kernel
open ComputerSystems.Library

/-- The atomic read is the start of a read and its wait. -/
theorem rtcRead_eq (fd : Fin 8) (pcb : Pcb) :
    rtcRead fd pcb = (rtcStart fd pcb).map fun started => (0, rtcWait started) := by
  rw [rtcRead, rtcStart, Option.map_map]
  rfl

/-- An interrupt acts once on the block of every process. -/
theorem rtcInt_block (pcb : Nat → Pcb) {pid : Nat} (slot : 1 ≤ pid ∧ pid ≤ numMaxProcesses) :
    rtcInt pcb (getProcessPCB pid) = rtcTick (pcb (getProcessPCB pid)) := by
  have visited : ∀ other, 1 ≤ other → other ≤ numMaxProcesses →
      rtcInt pcb (getProcessPCB other) = if other ≤ numMaxProcesses then
        rtcTick (pcb (getProcessPCB other)) else pcb (getProcessPCB other) := by
    unfold rtcInt
    apply forLoop_rule fun done (blocks : Nat → Pcb) =>
      ∀ other, 1 ≤ other → other ≤ numMaxProcesses → blocks (getProcessPCB other) =
        if other ≤ done then rtcTick (pcb (getProcessPCB other)) else pcb (getProcessPCB other)
    · intro other low _
      rw [if_neg (by omega)]
    · intro done blocks early before other low high
      rw [Nat.zero_add]
      by_cases here : other = done + 1
      · subst here
        rw [Function.update_self, before _ low high, if_neg (by omega), if_pos (Nat.le_refl _)]
      · have apart : getProcessPCB other ≠ getProcessPCB (done + 1) :=
          fun same => here (getProcessPCB_injective high early same)
        rw [Function.update_of_ne apart, before other low high]
        simp only [show other ≤ done + 1 ↔ other ≤ done by omega]
  rw [visited pid slot.1 slot.2, if_pos slot.2]

@[simp] theorem rtcTick_fileArray (pcb : Pcb) : (rtcTick pcb).fileArray = pcb.fileArray := by
  unfold rtcTick
  split <;> rfl

@[simp] theorem rtcTick_rtcCount (pcb : Pcb) : (rtcTick pcb).rtcCount = pcb.rtcCount - 1 := by
  unfold rtcTick
  split <;> simp_all

/-- The block of a process. -/
def RtcSystem.process (system : RtcSystem) (pid : Nat) : Pcb := system.pcb (getProcessPCB pid)

theorem rtcInt_process (system : RtcSystem) {pid : Nat} (slot : 1 ≤ pid ∧ pid ≤ numMaxProcesses) :
    ({ system with pcb := rtcInt system.pcb } : RtcSystem).process pid =
      rtcTick (system.process pid) :=
  rtcInt_block system.pcb slot

/-- A call changes the block of its caller and no other block. -/
theorem RtcSystem.call_ok {system next : RtcSystem} {caller : Caller} {change : Pcb → Pcb}
    (called : system.call caller change = .ok next) :
    system.waits caller.pid = false ∧ next.waits = system.waits ∧
      next.process caller.pid = change (system.process caller.pid) ∧
      ∀ pid, pid ≤ numMaxProcesses → pid ≠ caller.pid →
        next.process pid = system.process pid := by
  unfold RtcSystem.call at called
  split at called
  · cases called
  · next idle =>
    cases called
    have block := caller.inStack
    refine ⟨by simpa using idle, rfl, ?_, fun pid small different => ?_⟩
    · unfold RtcSystem.process
      dsimp only
      rw [block, Function.update_self]
    · unfold RtcSystem.process
      dsimp only
      rw [block, Function.update_of_ne]
      exact fun same => different (getProcessPCB_injective small caller.slot.2 same)

/-- The rate that a write sets, if the driver accepts it. -/
def acceptedRate (nbytes : Int) : Option (Nat → UInt8) → Option Int
  | none => none
  | some bytes =>
      let freq := requestedRate bytes
      if nbytes ≠ 4 ∨ freq < 2 ∨ freq > 1024 ∨ freq.toNat &&& (freq.toNat - 1) ≠ 0 then none
      else some freq

/-- A write either sets an accepted rate or changes nothing. -/
theorem rtcWrite_eq (fd : Fin 8) (buf : Option (Nat → UInt8)) (nbytes : Int)
    (fileArray : FileArray) :
    rtcWrite fd buf nbytes fileArray =
      match acceptedRate nbytes buf with
      | none => (-1, fileArray)
      | some freq => (4, Function.update fileArray fd
          { fileArray fd with filePosition := BitVec.ofInt 32 freq }) := by
  cases buf with
  | none => rfl
  | some bytes =>
      unfold rtcWrite acceptedRate
      dsimp only
      by_cases size : nbytes ≠ 4
      · rw [if_pos size, if_pos (.inl size)]
      · by_cases range : requestedRate bytes < 2 ∨ requestedRate bytes > 1024 ∨
            (requestedRate bytes).toNat &&& ((requestedRate bytes).toNat - 1) ≠ 0
        · rw [if_neg size, if_pos range, if_pos (.inr range)]
        · rw [if_neg size, if_neg range, if_neg (by tauto)]

theorem acceptedRate_some {nbytes : Int} {buf : Option (Nat → UInt8)} {freq : Int}
    (accepted : acceptedRate nbytes buf = some freq) :
    RtcRate (BitVec.ofInt 32 freq) ∧ (BitVec.ofInt 32 freq).toInt = freq := by
  cases buf with
  | none => cases accepted
  | some bytes =>
      unfold acceptedRate at accepted
      dsimp only at accepted
      split at accepted
      · cases accepted
      · next range =>
        obtain rfl := Option.some.inj accepted
        push Not at range
        obtain ⟨_, low, high, single⟩ := range
        refine ⟨rtcRate_of_checked _ low high single, ?_⟩
        rw [BitVec.toInt_ofInt, Int.bmod_def]
        omega

/-- The last accepted rate of one descriptor after one more event. -/
def noteRate (pid : Nat) (fd : Fin 8) (last : Option Int) : RtcEvent → Option Int
  | .rtcOpen caller other => if caller.pid = pid ∧ other = fd then some 2 else last
  | .rtcWrite caller other buf nbytes =>
      if caller.pid = pid ∧ other = fd then (acceptedRate nbytes buf).or last else last
  | _ => last

def lastRate (pid : Nat) (fd : Fin 8) (events : List RtcEvent) : Option Int :=
  events.foldl (noteRate pid fd) none

/-- The position of a descriptor is its last accepted rate. -/
def HoldsRate (pid : Nat) (fd : Fin 8) (system : RtcSystem) (last : Option Int) : Prop :=
  ∀ rate, last = some rate →
    RtcRate ((system.process pid).fileArray fd).filePosition ∧
      ((system.process pid).fileArray fd).filePosition.toInt = rate

section
variable {pid : Nat} {fd : Fin 8} {system next : RtcSystem} {last : Option Int}

theorem HoldsRate.congr (holds : HoldsRate pid fd system last)
    (same : (next.process pid).fileArray fd = (system.process pid).fileArray fd) :
    HoldsRate pid fd next last := by
  unfold HoldsRate
  rw [same]
  exact holds

/-- A call keeps the rate of every descriptor that it does not change. -/
theorem HoldsRate.call (holds : HoldsRate pid fd system last) (small : pid ≤ numMaxProcesses)
    {caller : Caller} {change : Pcb → Pcb} (called : system.call caller change = .ok next)
    (kept : caller.pid = pid →
      (change (system.process pid)).fileArray fd = (system.process pid).fileArray fd) :
    HoldsRate pid fd next last := by
  obtain ⟨_, _, own, others⟩ := RtcSystem.call_ok called
  apply holds.congr
  by_cases same : caller.pid = pid
  · rw [← same, own, same, kept same]
  · rw [others pid small (Ne.symm same)]

theorem rtcStart_fileArray {other : Fin 8} {pcb started : Pcb}
    (start : rtcStart other pcb = some started) : started.fileArray = pcb.fileArray := by
  rw [rtcStart, Option.map_eq_some_iff] at start
  obtain ⟨period, _, rfl⟩ := start
  rfl

/-- The start of a read changes the block of its caller, which then waits. -/
theorem rtcRead_ok {caller : Caller} {other : Fin 8}
    (begun : rtcStep system (.rtcRead caller other) = .ok next) :
    ∃ started called, rtcStart other (system.process caller.pid) = some started ∧
      system.call caller (fun _ => started) = .ok called ∧
      next = { called with waits := Function.update called.waits caller.pid true } := by
  simp only [rtcStep] at begun
  have block := caller.inStack
  cases start : rtcStart other (system.pcb (getCurrentProcessPCB caller.esp)) with
  | none =>
      rw [start] at begun
      cases begun
  | some started =>
      rw [start] at begun
      obtain ⟨called, call, rfl⟩ := map_ok begun
      rw [block] at start
      exact ⟨started, called, start, call, rfl⟩

/-- Every step keeps the noted rate of every descriptor. -/
theorem HoldsRate.step (holds : HoldsRate pid fd system last)
    (slot : 1 ≤ pid ∧ pid ≤ numMaxProcesses) {event : RtcEvent}
    (stepped : rtcStep system event = .ok next) :
    HoldsRate pid fd next (noteRate pid fd last event) := by
  cases event with
  | rtcInt =>
      cases stepped
      apply holds.congr
      rw [rtcInt_process system slot, rtcTick_fileArray]
  | rtcOpen caller other =>
      rw [noteRate]
      rw [rtcStep] at stepped
      by_cases own : caller.pid = pid ∧ other = fd
      · rw [if_pos own]
        obtain ⟨rfl, rfl⟩ := own
        obtain ⟨_, _, changed, _⟩ := RtcSystem.call_ok stepped
        have entry : (next.process caller.pid).fileArray other =
            { (system.process caller.pid).fileArray other with
              filePosition := 2, flags := .fileOccup } := by
          rw [changed]
          exact Function.update_self ..
        rintro rate ⟨⟩
        rw [entry]
        exact ⟨⟨1, by decide, by decide, rfl⟩, rfl⟩
      · rw [if_neg own]
        apply holds.call slot.2 stepped
        intro same
        exact Function.update_of_ne (fun equal => own ⟨same, equal.symm⟩) ..
  | rtcWrite caller other buf nbytes =>
      rw [noteRate]
      rw [rtcStep] at stepped
      simp only [rtcWrite_eq] at stepped
      by_cases own : caller.pid = pid ∧ other = fd
      · rw [if_pos own]
        obtain ⟨rfl, rfl⟩ := own
        cases accepted : acceptedRate nbytes buf with
        | none =>
            simp only [accepted] at stepped
            exact holds.call slot.2 stepped fun _ => rfl
        | some freq =>
            simp only [accepted] at stepped
            obtain ⟨_, _, changed, _⟩ := RtcSystem.call_ok stepped
            have entry : (next.process caller.pid).fileArray other =
                { (system.process caller.pid).fileArray other with
                  filePosition := BitVec.ofInt 32 freq } := by
              rw [changed]
              exact Function.update_self ..
            rintro rate ⟨⟩
            rw [entry]
            exact acceptedRate_some accepted
      · rw [if_neg own]
        apply holds.call slot.2 stepped
        intro same
        cases acceptedRate nbytes buf with
        | none => rfl
        | some freq => exact Function.update_of_ne (fun equal => own ⟨same, equal.symm⟩) ..
  | rtcRead caller other =>
      obtain ⟨started, called, start, call, rfl⟩ := rtcRead_ok stepped
      have kept := holds.call slot.2 call fun same => by
        rw [rtcStart_fileArray start, same]
      exact kept
  | rtcReturn caller =>
      simp only [rtcStep] at stepped
      split at stepped
      · split at stepped
        · cases stepped
          exact holds
        · cases stepped
      · cases stepped

/-- A pending read of a period has counted down one for each interrupt. -/
def CountsDown (pid period : Nat) (system : RtcSystem) (ticks : Nat) : Prop :=
  system.waits pid = true ∧ (system.process pid).rtcCount = period - ticks

def isTick : RtcEvent → Bool
  | .rtcInt => true
  | _ => false

/-- The event is not the return of the read of the process. -/
def Pending (pid : Nat) : RtcEvent → Prop
  | .rtcReturn caller => caller.pid ≠ pid
  | _ => True

/-- A waiting process makes no calls, and the calls of others do not reach its block. -/
theorem CountsDown.call {period ticks : Nat} (counts : CountsDown pid period system ticks)
    (small : pid ≤ numMaxProcesses) {caller : Caller} {change : Pcb → Pcb}
    (called : system.call caller change = .ok next) :
    caller.pid ≠ pid ∧ CountsDown pid period next ticks := by
  obtain ⟨idle, waits, _, others⟩ := RtcSystem.call_ok called
  have different : caller.pid ≠ pid := by
    rintro rfl
    rw [counts.1] at idle
    cases idle
  refine ⟨different, ?_, ?_⟩
  · rw [waits, counts.1]
  · rw [others pid small different.symm, counts.2]

theorem CountsDown.step {period ticks : Nat} (counts : CountsDown pid period system ticks)
    (slot : 1 ≤ pid ∧ pid ≤ numMaxProcesses) {event : RtcEvent} (pending : Pending pid event)
    (stepped : rtcStep system event = .ok next) :
    CountsDown pid period next (if isTick event then ticks + 1 else ticks) := by
  cases event with
  | rtcInt =>
      cases stepped
      refine ⟨counts.1, ?_⟩
      rw [rtcInt_process system slot, rtcTick_rtcCount, counts.2]
      exact Nat.sub_sub period ticks 1
  | rtcOpen caller other =>
      rw [rtcStep] at stepped
      exact (counts.call slot.2 stepped).2
  | rtcWrite caller other buf nbytes =>
      rw [rtcStep] at stepped
      exact (counts.call slot.2 stepped).2
  | rtcRead caller other =>
      obtain ⟨started, called, start, call, rfl⟩ := rtcRead_ok stepped
      obtain ⟨different, waits, count⟩ := counts.call slot.2 call
      exact ⟨(Function.update_of_ne different.symm ..).trans waits, count⟩
  | rtcReturn caller =>
      simp only [rtcStep] at stepped
      split at stepped
      · split at stepped
        · cases stepped
          exact ⟨(Function.update_of_ne (Ne.symm pending) ..).trans counts.1, counts.2⟩
        · cases stepped
      · cases stepped

end

theorem foldl_ticks (events : List RtcEvent) (ticks : Nat) :
    events.foldl (fun ticks event => if isTick event then ticks + 1 else ticks) ticks =
      ticks + events.countP isTick := by
  induction events generalizing ticks with
  | nil => rfl
  | cons event rest ih =>
      rw [List.foldl_cons, ih, List.countP_cons]
      split <;> omega

/-- A read on a descriptor that holds a rate starts to count down from its period. -/
theorem HoldsRate.begin {system : RtcSystem} {caller : Caller} {fd : Fin 8} {rate : Int}
    (holds : HoldsRate caller.pid fd system (some rate))
    (idle : system.waits caller.pid = false) :
    ∃ begun period, rtcStep system (.rtcRead caller fd) = .ok begun ∧
      CountsDown caller.pid period begun 0 ∧ (period : Int) = 1024 / rate := by
  obtain ⟨legal, position⟩ := holds rate rfl
  obtain ⟨period, defined, low, high, exact⟩ := rtcPeriod_of_rate legal
  have block := caller.inStack
  rw [position] at exact
  have quotient : period = 1024 / rate :=
    (Int.ediv_eq_of_eq_mul_left (fun zero => by simp [zero] at exact) exact.symm).symm
  have start : rtcStart fd (system.process caller.pid) =
      some { system.process caller.pid with rtcCount := period.toNat } := by
    rw [rtcStart, defined, Option.map_some, Int.emod_eq_of_lt (by omega) (by omega)]
  unfold RtcSystem.process at start
  simp only [rtcStep, RtcSystem.call, block, start, idle, Bool.false_eq_true, if_false, Except.map]
  refine ⟨_, period.toNat, rfl, ⟨Function.update_self .., ?_⟩, by omega⟩
  unfold RtcSystem.process
  dsimp only
  rw [Function.update_self]
  rfl

/-- A pending read returns exactly when its count has come down to zero. -/
theorem CountsDown.returns_iff {system : RtcSystem} {caller : Caller} {period ticks : Nat}
    (counts : CountsDown caller.pid period system ticks) :
    (∃ returned, rtcStep system (.rtcReturn caller) = .ok returned) ↔ period ≤ ticks := by
  obtain ⟨waits, count⟩ := counts
  unfold RtcSystem.process at count
  simp only [rtcStep, waits, if_pos, caller.inStack, count, Nat.sub_eq_zero_iff_le]
  constructor
  · rintro ⟨returned, finished⟩
    by_contra early
    rw [if_neg early] at finished
    cases finished
  · intro late
    rw [if_pos late]
    exact ⟨_, rfl⟩

theorem rtcWrite_rejected {system next : RtcSystem} {caller : Caller} {fd : Fin 8}
    {buf : Option (Nat → UInt8)} {nbytes : Int}
    (rejected : (rtcWrite fd buf nbytes (system.process caller.pid).fileArray).1 = -1)
    (stepped : rtcStep system (.rtcWrite caller fd buf nbytes) = .ok next) : next = system := by
  rw [rtcWrite_eq] at rejected
  cases accepted : acceptedRate nbytes buf with
  | some freq =>
      rw [accepted] at rejected
      change (4 : Int) = -1 at rejected
      exact absurd rejected (by decide)
  | none =>
      simp only [rtcStep, rtcWrite_eq, accepted, RtcSystem.call] at stepped
      split at stepped
      · cases stepped
      · cases stepped
        rw [Function.update_eq_self]

/-- A read on a descriptor with an accepted rate starts, and it returns at the first test that
follows exactly `1024 / rate` interrupts, whatever happens in between. A rejected write changes
nothing. -/
theorem rtcRead_ticks (initial system : RtcSystem) (events : List RtcEvent) (caller : Caller)
    (fd : Fin 8) (rate : Int) (reached : run rtcStep initial events = .ok system)
    (idle : system.waits caller.pid = false)
    (accepted : lastRate caller.pid fd events = some rate) :
    (∃ begun, rtcStep system (.rtcRead caller fd) = .ok begun ∧
      ∀ later after, (∀ event ∈ later, Pending caller.pid event) →
        run rtcStep begun later = .ok after →
          ((∃ returned, rtcStep after (.rtcReturn caller) = .ok returned) ↔
            1024 / rate ≤ (later.countP isTick : Int))) ∧
      ∀ (other : Caller) (otherFd : Fin 8) (buf : Option (Nat → UInt8)) (nbytes : Int)
        (next : RtcSystem),
        (rtcWrite otherFd buf nbytes (system.process other.pid).fileArray).1 = -1 →
          rtcStep system (.rtcWrite other otherFd buf nbytes) = .ok next → next = system := by
  have holds : HoldsRate caller.pid fd system (lastRate caller.pid fd events) :=
    run_simulates (HoldsRate caller.pid fd) (noteRate caller.pid fd)
      (fun _ _ _ _ holds stepped => holds.step caller.slot stepped)
      (fun _ impossible => by cases impossible) reached
  rw [accepted] at holds
  refine ⟨?_, fun _ _ _ _ _ rejected stepped => rtcWrite_rejected rejected stepped⟩
  obtain ⟨begun, period, start, counts, quotient⟩ := holds.begin idle
  refine ⟨begun, start, fun later after pending run => ?_⟩
  have counted := run_simulates_along (CountsDown caller.pid period)
    (fun ticks event => if isTick event then ticks + 1 else ticks)
    (fun _ _ _ _ counts pending stepped => counts.step caller.slot pending stepped)
    counts (along_of_forall rtcStep begun later pending) run
  rw [foldl_ticks, Nat.zero_add] at counted
  rw [counted.returns_iff, ← quotient]
  exact_mod_cast Iff.rfl

def firstCaller : Caller := ⟨1, 0x7FD000, by decide, by decide +kernel⟩

def secondCaller : Caller := ⟨2, 0x7FB000, by decide, by decide +kernel⟩

/-- The first process sets a rate of 512, and the second keeps the rate of a fresh descriptor. -/
def rateEvents : List RtcEvent :=
  [.rtcOpen firstCaller 2,
    .rtcWrite firstCaller 2 (some fun index => if index = 1 then 2 else 0) 4,
    .rtcOpen secondCaller 2, .rtcWrite firstCaller 2 none 4]

/-- Two interrupts with the read of another process between them. -/
def tickEvents : List RtcEvent := [.rtcInt, .rtcRead secondCaller 2, .rtcInt]

/-- A read at 512 hertz returns after two interrupts. -/
theorem rtcRead_ticks_two : ∃ begun after returned,
    run rtcStep begun tickEvents = .ok after ∧
      rtcStep after (.rtcReturn firstCaller) = .ok returned := by
  have passed : runCheck rtcStep ⟨fun _ => zeroPcb, fun _ => false⟩ rateEvents (fun system =>
      !system.waits firstCaller.pid &&
        runCheck rtcStep system (.rtcRead firstCaller 2 :: tickEvents) fun _ => true) = true := by
    decide +kernel
  obtain ⟨system, reached, checked⟩ := runCheck_sound passed
  rw [Bool.and_eq_true] at checked
  obtain ⟨begun, start, returns⟩ := (rtcRead_ticks _ system rateEvents firstCaller 2 512 reached
    (by simpa using checked.1) (by decide +kernel)).1
  obtain ⟨after, ran, _⟩ := runCheck_sound checked.2
  rw [run_cons rtcStep system begun _ _ start] at ran
  obtain ⟨returned, finished⟩ :=
    (returns tickEvents after (by simp [tickEvents, Pending]) ran).2 (by decide)
  exact ⟨begun, after, returned, ran, finished⟩

end ComputerSystems.Kernel
