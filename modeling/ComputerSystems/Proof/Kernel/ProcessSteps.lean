import ComputerSystems.Proof.Kernel.ProcessStacks

namespace ComputerSystems.Kernel
open ComputerSystems.Library

section
variable {machine : Machine} {shells : Stacks (Fin 3) Nat}

/-- A new block only disturbs processes that do not exist yet. -/
theorem Represents.block_free (represents : Represents machine shells) {slot : Nat}
    (free : machine.freeSlot = some slot) (change : Pcb → Pcb) {pid : Nat} (member : pid ∈ shells) :
    (machine.updatePcb (getProcessPCB (slot + 1)) change).process pid = machine.process pid := by
  obtain ⟨small, idle⟩ := freeSlot_eq_some free
  apply machine.updatePcb_process_of_ne (by omega) (represents.bounded pid member)
  intro same
  exact represents.fresh idle (same ▸ member)

theorem Represents.undisturbed_prepared (represents : Represents machine shells) {slot : Nat}
    (free : machine.freeSlot = some slot) (change : Pcb → Pcb) (frames : Nat → Nat → UInt8)
    (directory : Int) :
    Undisturbed machine (prepared machine slot change frames directory) shells where
  heads _ := rfl
  lineage _ member := congrArg Pcb.lineage (represents.block_free free change member)
  context _ member _ := congrArg Pcb.context (represents.block_free free change member)
  active := rfl
  currProcess := rfl

theorem closedMachine_lineage (machine : Machine) (fileArray : FileArray) (pid : Nat) :
    ((closedMachine machine fileArray).process pid).lineage = (machine.process pid).lineage :=
  machine.cli.updatePcb_field Pcb.lineage _ _ rfl _

theorem closedMachine_context (machine : Machine) (fileArray : FileArray) (pid : Nat) :
    ((closedMachine machine fileArray).process pid).context = (machine.process pid).context :=
  machine.cli.updatePcb_field Pcb.context _ _ rfl _

theorem undisturbed_closedMachine (fileArray : FileArray) :
    Undisturbed machine (closedMachine machine fileArray) shells where
  heads _ := rfl
  lineage pid _ := closedMachine_lineage machine fileArray pid
  context pid _ _ := closedMachine_context machine fileArray pid
  active := rfl
  currProcess := rfl

theorem undisturbed_saveContext (running : Running machine shells)
    (kernel : machine.cpu.userMode = false) : Undisturbed machine machine.saveContext shells where
  heads _ := rfl
  lineage _ _ := machine.updatePcb_field Pcb.lineage _ _ rfl _
  context pid member other := by
    have small := running.bounded pid member
    have same : machine.saveContext.process pid = machine.process pid := by
      unfold Machine.saveContext
      have bound := running.bounded _ running.mem_currProcess
      rw [(running.owner kernel).1]
      exact machine.updatePcb_process_of_ne bound small other _
    rw [same]
  active := rfl
  currProcess := rfl

/-- The saved context of the running process is that of the processor. -/
theorem saveContext_context (running : Running machine shells)
    (kernel : machine.cpu.userMode = false) :
    (machine.saveContext.process machine.currProcess).context =
      ⟨.eipReturn, machine.cpu.esp, machine.cpu.ebp, false⟩ := by
  unfold Machine.saveContext
  rw [(running.owner kernel).1, machine.updatePcb_process_self]
  rfl

theorem Running.moved (running : Running machine shells) {esp ebp : Nat}
    (inBlock : getCurrentProcessPCB esp = getCurrentProcessPCB machine.stackOwner)
    (baseInBlock : getCurrentProcessPCB ebp = getCurrentProcessPCB machine.stackOwner) :
    Running { machine with cpu := { machine.cpu with esp := esp, ebp := ebp, userMode := false } }
      shells := by
  rw [running.stackOwner] at inBlock baseInBlock
  exact { running with owner := fun _ => ⟨inBlock, baseInBlock⟩ }

theorem Running.contextSwitch (running : Running machine shells) :
    Running machine.contextSwitch shells :=
  { running with owner := fun mode => absurd mode (by simp [Machine.contextSwitch]) }

/-- The new process is the child of the process that hosts it. -/
theorem startProcess_lineage (slot : Nat) (machine : Machine) :
    ((startProcess slot machine).machine.process (slot + 1)).lineage =
      ⟨machine.currProcess, machine.cpu.esp, machine.cpu.ebp,
        machine.currentPcb.terminalIndex⟩ := by
  exact congrArg Pcb.lineage (machine.updatePcb_process_self (slot + 1) (childBlock machine))

theorem Represents.startProcess_process (represents : Represents machine shells) {slot : Nat}
    (small : slot < 6) (idle : machine.active slot = false) {pid : Nat} (member : pid ∈ shells) :
    (startProcess slot machine).machine.process pid = machine.process pid := by
  have different : pid ≠ slot + 1 := fun same => represents.fresh idle (same ▸ member)
  exact machine.updatePcb_process_of_ne (by omega) (represents.bounded pid member) different
    (childBlock machine)

/-- A new process goes on top of the stack of its terminal. -/
theorem Placed.start (placed : Placed machine shells) {slot : Nat} (small : slot < 6)
    (idle : machine.active slot = false)
    (hosted : (shells.stack machine.currentPcb.terminalIndex).headD 0 = machine.currProcess)
    (owner : machine.currProcess ≠ 0 →
      getCurrentProcessPCB machine.cpu.esp = getProcessPCB machine.currProcess ∧
        getCurrentProcessPCB machine.cpu.ebp = getProcessPCB machine.currProcess) :
    Running (startProcess slot machine).machine
      (shells.push machine.currentPcb.terminalIndex (slot + 1) (placed.fresh idle)) := by
  have child := startProcess_lineage slot machine
  have others {pid : Nat} (member : pid ∈ shells) :=
    placed.startProcess_process small idle member
  have represents : Represents (startProcess slot machine).machine _ := placed.push small idle
    machine.currentPcb.terminalIndex (Machine.setActiveProcess_self ..)
    (fun _ other => congrArg Terminal.activeProcess (Machine.setActiveProcess_of_ne _ other _))
    (by rw [child, hosted]) (by rw [child]) (fun _ member => congrArg Pcb.lineage (others member))
    rfl
  constructor
  case current => exact ⟨_, _, Stacks.push_self ..⟩
  case esp0 => rfl
  case owner => exact fun mode => absurd mode (by simp [startProcess, Machine.contextSwitch])
  refine ⟨represents, ?_, ?_⟩
  · intro pid member
    rw [Stacks.mem_push] at member
    rcases member with rfl | old
    · rw [child]
      exact owner
    · rw [others old]
      exact placed.parents pid old
  · intro terminal pid rest top other
    by_cases same : terminal = machine.currentPcb.terminalIndex
    · rw [same, Stacks.push_self] at top
      exact absurd (List.cons.inj top).1.symm other
    · rw [Stacks.push_of_ne _ same] at top
      rw [others (mem_of_top top)]
      apply placed.saved terminal pid rest top
      intro current
      rw [← current] at hosted
      cases shape : shells.stack machine.currentPcb.terminalIndex with
      | nil =>
          rw [shape] at hosted
          exact placed.ne_zero (mem_of_top top) hosted.symm
      | cons head tail =>
          rw [shape] at hosted
          change head = pid at hosted
          subst hosted
          exact same (top_unique top shape)

/-- A halt returns to the process below the running one. -/
theorem Running.left (running : Running machine shells) (kernel : machine.cpu.userMode = false)
    (fileArray : FileArray) (child : machine.currentPcb.parentNum ≠ 0) :
    Running (leftMachine machine fileArray) (shells.pop machine.currentPcb.terminalIndex) := by
  obtain ⟨rest, top⟩ := running.parent kernel child
  have lineage (pid : Nat) : ((leftMachine machine fileArray).process pid).lineage =
      (machine.process pid).lineage := closedMachine_lineage machine fileArray pid
  have context (pid : Nat) : ((leftMachine machine fileArray).process pid).context =
      (machine.process pid).context := closedMachine_context machine fileArray pid
  have popped : (shells.pop machine.currentPcb.terminalIndex).stack
      machine.currentPcb.terminalIndex = machine.currentPcb.parentNum :: rest := by
    rw [Stacks.pop_self, top, List.tail_cons]
  have stacked := running.parents machine.currProcess (mem_of_top top)
  rw [← running.currentPcb kernel] at stacked
  have represents : Represents (leftMachine machine fileArray) _ := running.pop top
    (Machine.setActiveProcess_self ..)
    (fun _ other => congrArg Terminal.activeProcess (Machine.setActiveProcess_of_ne _ other _))
    (fun pid _ => lineage pid) rfl
  constructor
  case current => exact ⟨_, rest, popped⟩
  case esp0 => rfl
  case owner => exact fun _ => stacked child
  refine ⟨represents, ?_, ?_⟩
  · intro pid member
    rw [lineage]
    exact running.parents pid ((shells.mem_pop top pid).1 member).1
  · intro terminal pid tail head other
    rw [context]
    by_cases same : terminal = machine.currentPcb.terminalIndex
    · rw [same, popped] at head
      exact absurd (List.cons.inj head).1.symm other
    · rw [Stacks.pop_of_ne _ same] at head
      apply running.saved terminal pid tail head
      intro current
      subst current
      exact same (top_unique head top)

theorem dispatch_fields (index : Fin 3) (pid : Nat) (machine : Machine) :
    (dispatch index pid machine).console = machine.console ∧
      (dispatch index pid machine).pcb = machine.pcb ∧
      (dispatch index pid machine).active = machine.active ∧
      (dispatch index pid machine).cpu.esp0 = getKernelStackBottom pid := by
  unfold dispatch
  dsimp only
  split_ifs <;> exact ⟨rfl, rfl, rfl, rfl⟩

theorem dispatch_pages (index : Fin 3) (pid : Nat) (machine : Machine) :
    (dispatch index pid machine).pageDirectoryArray = machine.pageDirectoryArray ∧
      (dispatch index pid machine).firstPageTable = machine.firstPageTable ∧
      (dispatch index pid machine).videoMemPageTable = machine.videoMemPageTable := by
  unfold dispatch
  dsimp only
  split_ifs <;> exact ⟨rfl, rfl, rfl⟩

/-- A dispatch to kernel code runs on the saved stack of the process. -/
theorem dispatch_owner (index : Fin 3) (pid : Nat) (machine : Machine)
    (kernel : (dispatch index pid machine).cpu.userMode = false) :
    (machine.process pid).context.userMode = false ∧
      (dispatch index pid machine).cpu.esp = (machine.process pid).context.ebp ∧
      (dispatch index pid machine).cpu.ebp = (machine.process pid).context.ebp := by
  unfold dispatch at kernel ⊢
  dsimp only at kernel ⊢
  split_ifs at kernel ⊢ with user
  · cases kernel
  · exact ⟨eq_false_of_ne_true user, rfl, rfl⟩

/-- After the registers are stored, every top of a stack has its context in its own block. -/
theorem Running.saveContext_saved (running : Running machine shells)
    (kernel : machine.cpu.userMode = false) {terminal : Fin 3} {pid : Nat} {rest : List Nat}
    (top : shells.stack terminal = pid :: rest)
    (mode : (machine.saveContext.process pid).context.userMode = false) :
    getCurrentProcessPCB (machine.saveContext.process pid).context.ebp = getProcessPCB pid := by
  by_cases current : pid = machine.currProcess
  · subst current
    rw [saveContext_context running kernel]
    exact (running.owner kernel).2
  · have same := (undisturbed_saveContext running kernel).context pid (mem_of_top top) current
    rw [same] at mode ⊢
    exact running.saved terminal pid rest top current mode

/-- The scheduler makes the top of another stack the running process. -/
theorem Running.resumed (running : Running machine shells) (kernel : machine.cpu.userMode = false)
    {index : Fin 3} {pid : Nat} {rest : List Nat} (top : shells.stack index = pid :: rest) :
    Running (dispatch index pid machine.saveContext) shells := by
  have same := undisturbed_saveContext running kernel
  obtain ⟨console, pcb, active, esp0⟩ := dispatch_fields index pid machine.saveContext
  have current := dispatch_currProcess index pid machine.saveContext
  have process (other : Nat) : (dispatch index pid machine.saveContext).process other =
      machine.saveContext.process other := congrFun pcb _
  have represents : Represents (dispatch index pid machine.saveContext) shells :=
    running.congr (fun terminal => by rw [console]; rfl)
      (fun other member => by rw [process]; exact same.lineage other member) active
  constructor
  case current => exact ⟨index, rest, by rw [top, current]⟩
  case esp0 => rw [esp0, current]
  case owner =>
    intro mode
    obtain ⟨user, esp, ebp⟩ := dispatch_owner index pid machine.saveContext mode
    rw [esp, ebp, current]
    have saved := running.saveContext_saved kernel top user
    exact ⟨saved, saved⟩
  refine ⟨represents, ?_, ?_⟩
  · intro other member
    rw [process, same.lineage other member]
    exact running.parents other member
  · intro terminal other tail head _
    rw [process]
    exact running.saveContext_saved kernel head

theorem undisturbed_shown (next : Fin 3) :
    Undisturbed machine (setActiveTerminal next (switchScreens next machine)) shells where
  heads terminal := switchScreens_activeProcess machine next terminal
  lineage _ _ := rfl
  context _ _ _ := rfl
  active := rfl
  currProcess := rfl

/-- A mapped video page leaves the processes as they are. -/
theorem undisturbed_vidmap (machine : Machine) (shells : Stacks (Fin 3) Nat) (screenStart : Nat) :
    Undisturbed machine (vidmap screenStart machine).machine shells := by
  unfold vidmap
  split_ifs <;> exact ⟨fun _ => rfl, fun _ _ => rfl, fun _ _ _ => rfl, rfl, rfl⟩

theorem vidmap_stack (screenStart : Nat) (machine : Machine) :
    (vidmap screenStart machine).machine.cpu.esp0 = machine.cpu.esp0 ∧
      (vidmap screenStart machine).machine.cpu.esp = machine.cpu.esp ∧
      (vidmap screenStart machine).machine.cpu.ebp = machine.cpu.ebp := by
  unfold vidmap
  split_ifs <;> exact ⟨rfl, rfl, rfl⟩

/-- The block of a new root shell after both parts of its set-up. -/
theorem shellMachine_block (machine : Machine) (next : Fin 3) (slot : Nat)
    (frames : Nat → Nat → UInt8) :
    (shellMachine machine next slot frames).process (slot + 1) =
      seedBlock (loadedShell machine next slot frames).entryPoint
        (shellBlock next (machine.process (slot + 1))) := by
  have seeded := (loadedShell machine next slot frames).updatePcb_process_self (slot + 1)
    (seedBlock (loadedShell machine next slot frames).entryPoint)
  have prepared := machine.updatePcb_process_self (slot + 1) (shellBlock next)
  exact seeded.trans (congrArg (seedBlock _) prepared)

theorem Represents.shellMachine_process (represents : Represents machine shells) (next : Fin 3)
    {slot : Nat} (free : machine.freeSlot = some slot) (frames : Nat → Nat → UInt8) {pid : Nat}
    (member : pid ∈ shells) :
    (shellMachine machine next slot frames).process pid = machine.process pid := by
  obtain ⟨small, idle⟩ := freeSlot_eq_some free
  have bound := represents.bounded pid member
  have different : pid ≠ slot + 1 := fun same => represents.fresh idle (same ▸ member)
  have seeded := (loadedShell machine next slot frames).updatePcb_process_of_ne (by omega) bound
    different (seedBlock (loadedShell machine next slot frames).entryPoint)
  exact seeded.trans (machine.updatePcb_process_of_ne (by omega) bound different (shellBlock next))

/-- A new root shell is the only process of its terminal and does not run yet. -/
theorem Running.seeded (running : Running machine shells) {next : Fin 3}
    (vacant : (machine.console.terminals next).activeProcess = -1) {slot : Nat}
    (free : machine.freeSlot = some slot) (frames : Nat → Nat → UInt8) :
    Running (shellMachine machine next slot frames)
      (shells.push next (slot + 1) (running.fresh (freeSlot_eq_some free).2)) := by
  obtain ⟨small, idle⟩ := freeSlot_eq_some free
  have block := shellMachine_block machine next slot frames
  have others {pid : Nat} (member : pid ∈ shells) :=
    running.shellMachine_process next free frames member
  have empty := running.vacant vacant
  have represents : Represents (shellMachine machine next slot frames) _ :=
    running.push small idle next (Machine.setActiveProcess_self ..)
      (fun other different => (congrArg Terminal.activeProcess
        (Machine.setActiveProcess_of_ne _ different _)).trans
          (switchScreens_activeProcess machine next other))
      (by rw [block, empty]; rfl) (by rw [block]; rfl)
      (fun _ member => congrArg Pcb.lineage (others member)) rfl
  constructor
  case current =>
    obtain ⟨terminal, rest, top⟩ := running.current
    have different : terminal ≠ next := by
      intro same
      rw [same, empty] at top
      cases top
    exact ⟨terminal, rest, by rw [Stacks.push_of_ne _ different]; exact top⟩
  case esp0 => exact running.esp0
  case owner => exact running.owner
  refine ⟨represents, ?_, ?_⟩
  · intro pid member
    rw [Stacks.mem_push] at member
    rcases member with rfl | old
    · rw [block]
      intro child
      exact absurd rfl child
    · rw [others old]
      exact running.parents pid old
  · intro terminal pid rest top other
    by_cases same : terminal = next
    · rw [same, Stacks.push_self] at top
      rw [← (List.cons.inj top).1, block]
      intro mode
      cases mode
    · rw [Stacks.push_of_ne _ same] at top
      rw [others (mem_of_top top)]
      exact running.saved terminal pid rest top other

/-- Every step leads from one family of stacks to another. -/
theorem Running.step {fs : FileSystem} {log : List Action} {event : Event} {next : System}
    (running : Running machine shells) (stepped : StepCase fs machine log event next) :
    ∃ family, Running next.machine family := by
  cases stepped with
  | moved esp ebp inBlock baseInBlock => exact ⟨shells, running.moved inBlock baseInBlock⟩
  | returned kernel => exact ⟨shells, running.contextSwitch⟩
  | refused kernel => exact ⟨shells, { running with }⟩
  | failed kernel command stack slot free change frames =>
      exact ⟨shells, running.undisturbed (running.undisturbed_prepared free change frames _) rfl
        running.owner⟩
  | started kernel command stack slot free change frames call =>
      have same := running.undisturbed_prepared free change frames slot
      obtain ⟨small, idle⟩ := freeSlot_eq_some free
      have placed := running.toPlaced.undisturbed same
      have ready := running.undisturbed same rfl running.owner
      obtain ⟨rest, top⟩ := ready.top kernel
      exact ⟨_, placed.start small idle (by rw [top]; rfl) (fun _ => running.owner kernel)⟩
  | restarted kernel fileArray root =>
      have closed := running.undisturbed (undisturbed_closedMachine fileArray) rfl running.owner
      exact ⟨shells, closed.contextSwitch⟩
  | left kernel fileArray child => exact ⟨_, running.left kernel fileArray child⟩
  | mapped kernel screenStart inPage =>
      obtain ⟨esp0, esp, ebp⟩ := vidmap_stack screenStart machine
      have same := undisturbed_vidmap machine shells screenStart
      exact ⟨shells, running.undisturbed same esp0 fun _ => by
        rw [esp, ebp]
        exact running.owner kernel⟩
  | resumed kernel index runnable =>
      obtain ⟨pid, rest, top, active⟩ := running.occupied runnable
      rw [active, Int.toNat_natCast]
      exact ⟨shells, running.resumed kernel top⟩
  | unchanged kernel target => exact ⟨shells, running⟩
  | shown kernel terminal hidden occupied =>
      exact ⟨shells, running.undisturbed (undisturbed_shown terminal) rfl running.owner⟩
  | seeded kernel terminal hidden vacant slot free frames =>
      exact ⟨_, running.seeded vacant free frames⟩

end

end ComputerSystems.Kernel
