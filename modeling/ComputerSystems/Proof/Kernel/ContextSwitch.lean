import ComputerSystems.Proof.Kernel.ProcessTable

namespace ComputerSystems.Kernel
open ComputerSystems.Library

def Action.pid : Action → Nat
  | .start pid => pid
  | .seed pid _ => pid
  | .suspend pid _ => pid
  | .resume pid _ => pid
  | .continued pid => pid
  | .restart pid => pid
  | .vidmapped pid => pid

/-- The most recent action of one process. -/
def lastAction (pid : Nat) (log : List Action) : Option Action :=
  log.find? fun action => action.pid == pid

/-- The process has not run since it stored the context or since it was created with it. -/
def Fresh (pid : Nat) (context : Context) (log : List Action) : Prop :=
  lastAction pid log = some (.suspend pid context) ∨ lastAction pid log = some (.seed pid context)

/-- At every resumption the context was fresh. -/
def ResumesFresh : List Action → Prop
  | [] => True
  | action :: earlier =>
      (∀ pid context, action = .resume pid context → Fresh pid context earlier) ∧
        ResumesFresh earlier

theorem Fresh.cons {pid : Nat} {context : Context} {log : List Action} {action : Action}
    (fresh : Fresh pid context log) (other : action.pid ≠ pid) :
    Fresh pid context (action :: log) := by
  have same : lastAction pid (action :: log) = lastAction pid log :=
    List.find?_cons_of_neg (by simpa using other)
  unfold Fresh
  rw [same]
  exact fresh

theorem fresh_suspend (pid : Nat) (context : Context) (log : List Action) :
    Fresh pid context (.suspend pid context :: log) :=
  .inl (List.find?_cons_of_pos (by simp [Action.pid]))

theorem fresh_seed (pid : Nat) (context : Context) (log : List Action) :
    Fresh pid context (.seed pid context :: log) :=
  .inr (List.find?_cons_of_pos (by simp [Action.pid]))

theorem ResumesFresh.cons {action : Action} {log : List Action} (resumes : ResumesFresh log)
    (other : ∀ pid context, action ≠ .resume pid context) : ResumesFresh (action :: log) :=
  ⟨fun pid context resumed => absurd resumed (other pid context), resumes⟩

/-- The active processes that do not run have fresh contexts in their blocks. -/
structure Waiting (system : System) : Prop where
  resumes : ResumesFresh system.log
  waiting : ∀ terminal (pid : Nat),
    (system.machine.console.terminals terminal).activeProcess = pid →
      pid ≠ system.machine.currProcess → Fresh pid (system.machine.process pid).context system.log

structure Tracked (system : System) : Prop extends Waiting system where
  directory : system.machine.cpu.cr3 = system.machine.currProcess - 1

section
variable {machine : Machine} {log : List Action} {shells : Stacks (Fin 3) Nat}

theorem Represents.top_of_active (represents : Represents machine shells) {terminal : Fin 3}
    {pid : Nat} (active : (machine.console.terminals terminal).activeProcess = pid) :
    ∃ rest, shells.stack terminal = pid :: rest := by
  have occupied : (machine.console.terminals terminal).activeProcess ≠ -1 := by
    rw [active]
    omega
  obtain ⟨head, rest, top, same⟩ := represents.occupied occupied
  rw [active] at same
  rw [Int.natCast_inj.1 same]
  exact ⟨rest, top⟩

/-- A step keeps the waiting contexts when it keeps the waiting processes and their blocks. -/
theorem Waiting.keep (waiting : Waiting ⟨machine, log⟩) (running : Running machine shells)
    {after : Machine} (same : Undisturbed machine after shells) : Waiting ⟨after, log⟩ where
  resumes := waiting.resumes
  waiting terminal pid active other := by
    change (after.console.terminals terminal).activeProcess = pid at active
    change pid ≠ after.currProcess at other
    rw [same.heads] at active
    rw [same.currProcess] at other
    obtain ⟨rest, top⟩ := running.top_of_active active
    change Fresh pid (after.process pid).context log
    rw [same.context pid (mem_of_top top) other]
    exact waiting.waiting terminal pid active other

/-- An action of the running process leaves the waiting ones alone. -/
theorem Waiting.record (waiting : Waiting ⟨machine, log⟩) {action : Action}
    (own : action.pid = machine.currProcess) (quiet : ∀ pid context, action ≠ .resume pid context) :
    Waiting ⟨machine, action :: log⟩ where
  resumes := waiting.resumes.cons quiet
  waiting terminal pid active other :=
    (waiting.waiting terminal pid active other).cons (own ▸ Ne.symm other)

/-- When another process becomes active in place of the running one, every other active process
was active before and does not run. -/
theorem Running.still_active (running : Running machine shells)
    (kernel : machine.cpu.userMode = false) {base : Machine}
    (console : base.console = machine.console) {terminal : Fin 3} {pid first : Nat}
    (active : ((base.setActiveProcess machine.currentPcb.terminalIndex first).console.terminals
      terminal).activeProcess = pid) (other : pid ≠ first) :
    (machine.console.terminals terminal).activeProcess = pid ∧ pid ≠ machine.currProcess ∧
      pid ∈ shells := by
  obtain ⟨rest, top⟩ := running.top kernel
  have elsewhere : terminal ≠ machine.currentPcb.terminalIndex := by
    intro same
    rw [same, Machine.setActiveProcess_self] at active
    exact other (Int.natCast_inj.1 active).symm
  rw [Machine.setActiveProcess_of_ne _ elsewhere, console] at active
  obtain ⟨tail, head⟩ := running.top_of_active active
  refine ⟨active, ?_, mem_of_top head⟩
  intro same
  subst same
  exact elsewhere (top_unique head top)

/-- A new process runs at once, and the process that executes it stops being active. -/
theorem Waiting.started (tracked : Waiting ⟨machine, log⟩) (running : Running machine shells)
    (kernel : machine.cpu.userMode = false) {slot : Nat} (free : machine.freeSlot = some slot) :
    Waiting ⟨(startProcess slot machine).machine, .start (slot + 1) :: log⟩ where
  resumes := tracked.resumes.cons (by simp)
  waiting terminal pid active other := by
    obtain ⟨small, idle⟩ := freeSlot_eq_some free
    have console : (machine.updatePcb (getProcessPCB (slot + 1)) (childBlock machine)).console =
      machine.console := rfl
    obtain ⟨old, waits, member⟩ := running.still_active kernel console active other
    rw [running.startProcess_process small idle member]
    exact (tracked.waiting terminal pid old waits).cons (Ne.symm other)

/-- After a halt the parent runs at once. -/
theorem Waiting.left (tracked : Waiting ⟨machine, log⟩) (running : Running machine shells)
    (kernel : machine.cpu.userMode = false) (fileArray : FileArray) :
    Waiting ⟨leftMachine machine fileArray,
      .continued machine.currentPcb.parentNum :: log⟩ where
  resumes := tracked.resumes.cons (by simp)
  waiting terminal pid active other := by
    have console : (closedMachine machine fileArray).console = machine.console := rfl
    obtain ⟨old, waits, _⟩ := running.still_active kernel console active other
    have context : ((leftMachine machine fileArray).process pid).context =
        (machine.process pid).context := closedMachine_context machine fileArray pid
    rw [context]
    exact (tracked.waiting terminal pid old waits).cons (Ne.symm other)

theorem dispatch_cr3 (index : Fin 3) (pid : Nat) (machine : Machine) :
    (dispatch index pid machine).cpu.cr3 = pid - 1 := by
  unfold dispatch
  dsimp only
  split_ifs <;> rfl

/-- The scheduler stores the context of the running process before it reads the next one. -/
theorem Waiting.resumed (tracked : Waiting ⟨machine, log⟩) (running : Running machine shells)
    (kernel : machine.cpu.userMode = false) {index : Fin 3} {pid : Nat} {rest : List Nat}
    (top : shells.stack index = pid :: rest) :
    Waiting ⟨dispatch index pid machine.saveContext,
      .resume pid (machine.saveContext.process pid).context ::
        .suspend machine.currProcess
          (machine.saveContext.pcb (getCurrentProcessPCB machine.cpu.esp)).context :: log⟩ := by
  have same := undisturbed_saveContext running kernel
  obtain ⟨console, pcb, _, _⟩ := dispatch_fields index pid machine.saveContext
  have current := dispatch_currProcess index pid machine.saveContext
  rw [(running.owner kernel).1]
  have fresh {terminal : Fin 3} {other : Nat}
      (active : (machine.console.terminals terminal).activeProcess = other) :
      Fresh other (machine.saveContext.process other).context
        (.suspend machine.currProcess
          (machine.saveContext.process machine.currProcess).context :: log) := by
    by_cases runs : other = machine.currProcess
    · rw [runs]
      exact fresh_suspend _ _ _
    · obtain ⟨tail, head⟩ := running.top_of_active active
      rw [same.context other (mem_of_top head) runs]
      exact (tracked.waiting terminal other active runs).cons (Ne.symm runs)
  constructor
  case resumes =>
    refine ⟨?_, tracked.resumes.cons (by simp)⟩
    intro other context resumed
    cases resumed
    have active := running.heads index
    rw [top] at active
    exact fresh active
  case waiting =>
    intro terminal other active waits
    change ((dispatch index pid machine.saveContext).console.terminals terminal).activeProcess =
      other at active
    change other ≠ (dispatch index pid machine.saveContext).currProcess at waits
    rw [current] at waits
    rw [console] at active
    have process : (dispatch index pid machine.saveContext).process other =
      machine.saveContext.process other := congrFun pcb _
    rw [process]
    exact (fresh active).cons (Ne.symm waits)

/-- A new root shell waits with the context that the switch has given to it. -/
theorem Waiting.seeded (tracked : Waiting ⟨machine, log⟩) (running : Running machine shells)
    (next : Fin 3) {slot : Nat} (free : machine.freeSlot = some slot)
    (frames : Nat → Nat → UInt8) :
    Waiting ⟨shellMachine machine next slot frames,
      .seed (slot + 1) ((shellMachine machine next slot frames).process (slot + 1)).context ::
        log⟩ where
  resumes := tracked.resumes.cons (by simp)
  waiting terminal pid active other := by
    by_cases new : terminal = next
    · rw [new] at active
      have own : ((slot + 1 : Nat) : Int) = pid :=
        (Machine.setActiveProcess_self ..).symm.trans active
      have same : slot + 1 = pid := Int.natCast_inj.1 own
      subst same
      exact fresh_seed _ _ _
    · have kept : ((shellMachine machine next slot frames).console.terminals
          terminal).activeProcess = (machine.console.terminals terminal).activeProcess :=
        (congrArg Terminal.activeProcess (Machine.setActiveProcess_of_ne _ new _)).trans
          (switchScreens_activeProcess machine next terminal)
      have old := kept.symm.trans active
      obtain ⟨tail, head⟩ := running.top_of_active old
      rw [running.shellMachine_process next free frames (mem_of_top head)]
      apply (tracked.waiting terminal pid old other).cons
      intro same
      change slot + 1 = pid at same
      exact running.fresh (freeSlot_eq_some free).2 (same ▸ mem_of_top head)

end

theorem vidmap_cr3 (machine : Machine) {screenStart : Nat}
    (inPage : mb128 ≤ screenStart ∧ screenStart ≤ mb128 + mb4 - 4) :
    (vidmap screenStart machine).machine.cpu.cr3 = (machine.currProcess - 1 : Nat) := by
  simp only [mb128, mb4] at inPage
  rw [vidmap, if_neg (by simp only [mb128, mb4]; omega)]

/-- Every step keeps the contexts of the waiting processes fresh and loads the directory of the
process that runs next. -/
theorem Tracked.step {fs : FileSystem} {log : List Action} {machine : Machine} {next : System}
    {event : Event} {shells : Stacks (Fin 3) Nat} (tracked : Tracked ⟨machine, log⟩)
    (running : Running machine shells) (stepped : StepCase fs machine log event next) :
    Tracked next := by
  have waiting := tracked.toWaiting
  have registers {cpu : Cpu} : Undisturbed machine { machine with cpu := cpu } shells :=
    ⟨fun _ => rfl, fun _ _ => rfl, fun _ _ _ => rfl, rfl, rfl⟩
  cases stepped with
  | moved esp ebp _ _ => exact ⟨waiting.keep running registers, tracked.directory⟩
  | returned kernel => exact ⟨waiting.keep running registers, tracked.directory⟩
  | refused kernel => exact ⟨waiting.keep running registers, tracked.directory⟩
  | failed kernel command stack slot free change frames =>
      exact ⟨waiting.keep running (running.undisturbed_prepared free change frames _), rfl⟩
  | started kernel command stack slot free change frames call =>
      have same := running.undisturbed_prepared free change frames slot
      have ready := running.undisturbed same rfl running.owner
      refine ⟨(waiting.keep running same).started ready kernel free, ?_⟩
      change (slot : Int) = ((slot + 1 : Nat) : Int) - 1
      omega
  | restarted kernel fileArray root =>
      have closed : Undisturbed machine (closedMachine machine fileArray).contextSwitch shells :=
        { undisturbed_closedMachine fileArray with }
      exact ⟨(waiting.keep running closed).record rfl (by simp), tracked.directory⟩
  | left kernel fileArray child => exact ⟨waiting.left running kernel fileArray, rfl⟩
  | mapped kernel screenStart inPage =>
      have same := undisturbed_vidmap machine shells screenStart
      refine ⟨(waiting.keep running same).record same.currProcess.symm (by simp), ?_⟩
      have positive := running.currProcess_ne_zero
      change (vidmap screenStart machine).machine.cpu.cr3 =
        (vidmap screenStart machine).machine.currProcess - 1
      rw [vidmap_cr3 machine inPage, same.currProcess]
      omega
  | resumed kernel index runnable =>
      obtain ⟨pid, rest, top, active⟩ := running.occupied runnable
      rw [active, Int.toNat_natCast]
      refine ⟨waiting.resumed running kernel top, ?_⟩
      exact (dispatch_cr3 index pid _).trans (by rw [dispatch_currProcess])
  | unchanged kernel target => exact tracked
  | shown kernel terminal hidden occupied =>
      exact ⟨waiting.keep running (undisturbed_shown terminal), rfl⟩
  | seeded kernel terminal hidden vacant slot free frames =>
      exact ⟨waiting.seeded running terminal free frames, rfl⟩

/-- The first shell runs at once, and no other process waits. -/
theorem tracked_boot {fs : FileSystem} {machine : Machine} {stack : BootStack}
    {beyond : List UInt8} {initial : System} (booted : boot fs machine stack beyond = .ok initial) :
    Tracked initial := by
  obtain ⟨slot, change, frames, free, rfl⟩ := boot_cases booted
  refine ⟨⟨⟨by simp, trivial⟩, ?_⟩, ?_⟩
  · intro terminal pid active other
    have hosted : terminal ≠ (prepared (startUp machine stack) slot change frames
        slot).currentPcb.terminalIndex := by
      intro same
      rw [same] at active
      have own : ((slot + 1 : Nat) : Int) = pid :=
        (Machine.setActiveProcess_self ..).symm.trans active
      exact other (Int.natCast_inj.1 own).symm
    have vacant : (-1 : Int) = pid := (congrArg Terminal.activeProcess
      (Machine.setActiveProcess_of_ne _ hosted _)).symm.trans active
    omega
  · change (slot : Int) = ((slot + 1 : Nat) : Int) - 1
    omega

end ComputerSystems.Kernel
