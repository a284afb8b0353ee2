import ComputerSystems.Construction.Kernel.Keyboard
import ComputerSystems.Construction.Kernel.System

namespace ComputerSystems.Kernel
open ComputerSystems.Library

/-- The bottom of a kernel stack lies in the block of its process. -/
theorem getCurrentProcessPCB_bottom {pid : Nat} (small : pid ≤ 6) :
    getCurrentProcessPCB (getKernelStackBottom pid) = getProcessPCB pid := by
  unfold getCurrentProcessPCB getKernelStackBottom getProcessPCB
  omega

theorem getProcessPCB_injective {first second : Nat} (small : first ≤ 6) (also : second ≤ 6)
    (same : getProcessPCB first = getProcessPCB second) : first = second := by
  unfold getProcessPCB at same
  omega

theorem freeSlot_eq_some {machine : Machine} {slot : Nat} (found : machine.freeSlot = some slot) :
    slot < 6 ∧ machine.active slot = false := by
  rw [Machine.freeSlot, List.find?_range_eq_some] at found
  exact ⟨List.mem_range.1 found.2.1, by simpa using found.1⟩

namespace Console

@[simp] theorem setTerminal_self (console : Console) (index : Fin 3) (terminal : Terminal) :
    (console.setTerminal index terminal).terminals index = terminal :=
  Function.update_self ..

theorem setTerminal_of_ne (console : Console) {index other : Fin 3} (different : other ≠ index)
    (terminal : Terminal) :
    (console.setTerminal index terminal).terminals other = console.terminals other :=
  Function.update_of_ne different ..

/-- A field that the new terminal keeps is the same on every terminal. -/
theorem setTerminal_field {Value : Type*} (field : Terminal → Value) (console : Console)
    {index : Fin 3} {terminal : Terminal} (kept : field terminal = field (console.terminals index))
    (other : Fin 3) :
    field ((console.setTerminal index terminal).terminals other) =
      field (console.terminals other) := by
  by_cases same : other = index
  · rw [same, setTerminal_self, kept]
  · rw [setTerminal_of_ne console same]

end Console

namespace Machine

@[simp] theorem updatePcb_pcb_self (machine : Machine) (address : Nat) (change : Pcb → Pcb) :
    (machine.updatePcb address change).pcb address = change (machine.pcb address) :=
  Function.update_self ..

theorem updatePcb_pcb_of_ne (machine : Machine) {address other : Nat} (different : other ≠ address)
    (change : Pcb → Pcb) : (machine.updatePcb address change).pcb other = machine.pcb other :=
  Function.update_of_ne different ..

/-- A change that keeps one field of a block keeps it at every address. -/
theorem updatePcb_field {Value : Type*} (field : Pcb → Value) (machine : Machine) (address : Nat)
    (change : Pcb → Pcb) (kept : field (change (machine.pcb address)) = field (machine.pcb address))
    (other : Nat) : field ((machine.updatePcb address change).pcb other) =
      field (machine.pcb other) := by
  by_cases same : other = address
  · rw [same, updatePcb_pcb_self, kept]
  · rw [updatePcb_pcb_of_ne machine same]

theorem setActiveProcess_field {Value : Type*} (field : Terminal → Value) (machine : Machine)
    (index : Fin 3) (pid : Int)
    (kept : ∀ terminal : Terminal, field { terminal with activeProcess := pid } = field terminal)
    (other : Fin 3) : field ((machine.setActiveProcess index pid).console.terminals other) =
      field (machine.console.terminals other) := by
  exact machine.console.setTerminal_field field (kept _) other

theorem setActiveProcess_terminal (machine : Machine) (index : Fin 3) (pid : Int)
    (other : Fin 3) :
    ∃ process, (machine.setActiveProcess index pid).console.terminals other =
      { machine.console.terminals other with activeProcess := process } := by
  unfold setActiveProcess
  by_cases same : other = index
  · rw [same, Console.setTerminal_self]
    exact ⟨pid, rfl⟩
  · rw [Console.setTerminal_of_ne _ same]
    exact ⟨_, rfl⟩

theorem setActiveProcess_self (machine : Machine) (index : Fin 3) (pid : Int) :
    ((machine.setActiveProcess index pid).console.terminals index).activeProcess = pid :=
  congrArg Terminal.activeProcess (machine.console.setTerminal_self index _)

theorem setActiveProcess_of_ne (machine : Machine) {index other : Fin 3}
    (different : other ≠ index) (pid : Int) :
    (machine.setActiveProcess index pid).console.terminals other =
      machine.console.terminals other :=
  machine.console.setTerminal_of_ne different _

end Machine

/-- Loading a program changes nothing but the program pages. -/
theorem loadProgram_ok {fs : FileSystem} {filename : CString} {machine loaded : Machine}
    {status : Int} (finished : loadProgram fs filename machine = .ok (status, loaded)) :
    ∃ frames, loaded = { machine with frames := frames } := by
  unfold loadProgram at finished
  split at finished
  · cases finished
    exact ⟨_, rfl⟩
  · split at finished
    · cases finished
      exact ⟨_, rfl⟩
    · split at finished
      · cases finished
        exact ⟨_, rfl⟩
      · dsimp only at finished
        split at finished
        · cases finished
        · split at finished
          · cases finished
          · split at finished
            · cases finished
              exact ⟨_, rfl⟩
            · split at finished <;> cases finished <;> exact ⟨_, rfl⟩

/-- An inactive block, the program pages, the loaded directory, and the interrupt flag are all
that a failed or unfinished `execute` may change. -/
def prepared (machine : Machine) (slot : Nat) (change : Pcb → Pcb) (frames : Nat → Nat → UInt8)
    (directory : Int) : Machine :=
  { machine.updatePcb (getProcessPCB (slot + 1)) change with
    frames := frames
    cpu := { machine.cpu with cr3 := directory, interruptFlag := false } }

/-- Everything that `execute` can do. -/
theorem execute_cases {fs : FileSystem} {command : Option CString} {stack : List UInt8}
    {machine : Machine} {outcome : Outcome}
    (finished : execute fs command stack machine = .ok outcome) :
    (machine.freeSlot = none ∧ outcome = ⟨machine.cli, .returned (-1)⟩) ∨
    ∃ slot change frames, machine.freeSlot = some slot ∧
      (outcome = ⟨prepared machine slot change frames (machine.currProcess - 1),
          .returned (-1)⟩ ∨
        outcome = startProcess slot (prepared machine slot change frames slot)) := by
  unfold execute at finished
  cases free : machine.freeSlot with
  | none =>
      rw [free] at finished
      cases finished
      exact .inl ⟨rfl, rfl⟩
  | some slot =>
      rw [free] at finished
      cases command with
      | none => cases finished
      | some command =>
          dsimp only at finished
          split at finished
          · cases finished
          · next status loaded load =>
            obtain ⟨frames, rfl⟩ := loadProgram_ok load
            split at finished
            · cases finished
              exact .inr ⟨slot, _, frames, rfl, .inl rfl⟩
            · cases finished
              exact .inr ⟨slot, _, frames, rfl, .inr rfl⟩

/-- The machine after `halt` has closed the files of the running process. -/
def closedMachine (machine : Machine) (fileArray : FileArray) : Machine :=
  machine.cli.updatePcb (getCurrentProcessPCB machine.cpu.esp) fun pcb =>
    { pcb with fileArray := fileArray }

/-- The machine after `halt` has returned to the parent of the running process. -/
def leftMachine (machine : Machine) (fileArray : FileArray) : Machine :=
  { (closedMachine machine fileArray).setActiveProcess machine.currentPcb.terminalIndex
      machine.currentPcb.parentNum with
    active := Function.update machine.active (machine.currProcess - 1) false
    currProcess := machine.currentPcb.parentNum
    cpu := { (closedMachine machine fileArray).cpu with
      cr3 := machine.currentPcb.parentNum - 1
      esp0 := getKernelStackBottom machine.currentPcb.parentNum
      esp := machine.currentPcb.parentEsp
      ebp := machine.currentPcb.parentEbp } }

/-- Only the slot of the process that halts becomes free. -/
theorem leftMachine_active {machine : Machine} {fileArray : FileArray} {slot : Nat}
    (active : (leftMachine machine fileArray).active slot = true) : machine.active slot = true := by
  change Function.update machine.active (machine.currProcess - 1) false slot = true at active
  by_cases own : slot = machine.currProcess - 1
  · rw [own, Function.update_self] at active
    cases active
  · rw [Function.update_of_ne own] at active
    exact active

/-- Everything that `halt` can do. -/
theorem halt_cases {machine : Machine} {outcome : Outcome} (finished : halt machine = .ok outcome) :
    ∃ fileArray,
      (machine.currentPcb.parentNum = 0 ∧
        outcome = ⟨(closedMachine machine fileArray).contextSwitch,
          .toUser (closedMachine machine fileArray).entryPoint (mb128 + mb4 - 4) 0⟩) ∨
      (machine.currentPcb.parentNum ≠ 0 ∧
        outcome = ⟨leftMachine machine fileArray, .toKernel machine.currentPcb.execRetAddr⟩) := by
  unfold halt at finished
  dsimp only at finished
  split at finished
  · cases finished
  · next fileArray closed =>
    split at finished
    · next root =>
      cases finished
      exact ⟨fileArray, .inl ⟨root, rfl⟩⟩
    · next child =>
      cases finished
      exact ⟨fileArray, .inr ⟨child, rfl⟩⟩

theorem schedule_ok {machine after : Machine} (finished : schedule machine = .ok after) :
    ∃ index, (machine.console.terminals index).activeProcess ≠ -1 ∧
      after = dispatch index (machine.console.terminals index).activeProcess.toNat
        machine.saveContext := by
  unfold schedule at finished
  dsimp only at finished
  split at finished
  · cases finished
  · next runnable =>
    cases finished
    exact ⟨_, runnable, rfl⟩

/-- The machine after the program of a new root shell is in memory. -/
def loadedShell (machine : Machine) (next : Fin 3) (slot : Nat) (frames : Nat → Nat → UInt8) :
    Machine :=
  { (prepareShell next slot (switchScreens next machine)).loadPageDirectory slot with
    frames := frames }

/-- A new root shell on an empty terminal. -/
def shellMachine (machine : Machine) (next : Fin 3) (slot : Nat) (frames : Nat → Nat → UInt8) :
    Machine :=
  setActiveTerminal next
    (((seedShell slot (loadedShell machine next slot frames)).loadPageDirectory
      (machine.currProcess - 1)).setActiveProcess next (slot + 1))

/-- Everything that `switch_terminal` can do. -/
theorem switchTerminal_cases {fs : FileSystem} {index : Nat} {machine after : Machine}
    (finished : switchTerminal fs index machine = .ok after) :
    ((index < 3 → index = machine.console.activeTerminalIndex) ∧ after = machine) ∨
    ∃ inRange : index < 3, ⟨index, inRange⟩ ≠ machine.console.activeTerminalIndex ∧
      (((machine.console.terminals ⟨index, inRange⟩).activeProcess ≠ -1 ∧
          after = setActiveTerminal ⟨index, inRange⟩ (switchScreens ⟨index, inRange⟩ machine)) ∨
        ((machine.console.terminals ⟨index, inRange⟩).activeProcess = -1 ∧
          ((machine.freeSlot = none ∧ after = machine.cli) ∨
            ∃ slot frames, machine.freeSlot = some slot ∧
              after = shellMachine machine ⟨index, inRange⟩ slot frames))) := by
  unfold switchTerminal at finished
  split at finished
  · next inRange =>
    dsimp only at finished
    split at finished
    · next same =>
      cases finished
      exact .inl ⟨fun _ => congrArg Fin.val same, rfl⟩
    · next different =>
      refine .inr ⟨inRange, different, ?_⟩
      split at finished
      · next occupied =>
        cases finished
        exact .inl ⟨occupied, rfl⟩
      · next vacant =>
        refine .inr ⟨not_not.1 vacant, ?_⟩
        split at finished
        · next full =>
          cases finished
          exact .inl ⟨full, rfl⟩
        · next slot free =>
          split at finished
          · cases finished
          · next status loaded load =>
            obtain ⟨frames, rfl⟩ := loadProgram_ok load
            cases finished
            exact .inr ⟨slot, frames, free, rfl⟩
  · next outside =>
    cases finished
    exact .inl ⟨fun inside => absurd inside outside, rfl⟩

/-- Everything that one step of the system can do, with what it adds to the log. -/
inductive StepCase (fs : FileSystem) (machine : Machine) (log : List Action) :
    Event → System → Prop where
  | moved (esp ebp : Nat)
      (inBlock : getCurrentProcessPCB esp = getCurrentProcessPCB machine.stackOwner)
      (baseInBlock : getCurrentProcessPCB ebp = getCurrentProcessPCB machine.stackOwner) :
      StepCase fs machine log (.kernelStack esp ebp)
        ⟨{ machine with cpu := { machine.cpu with esp := esp, ebp := ebp, userMode := false } },
          log⟩
  | returned (kernel : machine.cpu.userMode = false) :
      StepCase fs machine log .userReturn ⟨machine.contextSwitch, log⟩
  | refused (kernel : machine.cpu.userMode = false) (event : Event) :
      StepCase fs machine log event ⟨machine.cli, log⟩
  | failed (kernel : machine.cpu.userMode = false) (command : Option CString)
      (stack : List UInt8) (slot : Nat) (free : machine.freeSlot = some slot)
      (change : Pcb → Pcb) (frames : Nat → Nat → UInt8) :
      StepCase fs machine log (.execute command stack)
        ⟨prepared machine slot change frames (machine.currProcess - 1), log⟩
  | started (kernel : machine.cpu.userMode = false) (command : Option CString)
      (stack : List UInt8) (slot : Nat) (free : machine.freeSlot = some slot)
      (change : Pcb → Pcb) (frames : Nat → Nat → UInt8)
      (call : execute fs command stack machine =
        .ok (startProcess slot (prepared machine slot change frames slot))) :
      StepCase fs machine log (.execute command stack)
        ⟨(startProcess slot (prepared machine slot change frames slot)).machine,
          .start (slot + 1) :: log⟩
  | restarted (kernel : machine.cpu.userMode = false) (fileArray : FileArray)
      (root : machine.currentPcb.parentNum = 0) :
      StepCase fs machine log .halt
        ⟨(closedMachine machine fileArray).contextSwitch, .restart machine.currProcess :: log⟩
  | left (kernel : machine.cpu.userMode = false) (fileArray : FileArray)
      (child : machine.currentPcb.parentNum ≠ 0) :
      StepCase fs machine log .halt
        ⟨leftMachine machine fileArray, .continued machine.currentPcb.parentNum :: log⟩
  | mapped (kernel : machine.cpu.userMode = false) (screenStart : Nat)
      (inPage : mb128 ≤ screenStart ∧ screenStart ≤ mb128 + mb4 - 4) :
      StepCase fs machine log (.vidmap screenStart)
        ⟨(vidmap screenStart machine).machine, .vidmapped machine.currProcess :: log⟩
  | resumed (kernel : machine.cpu.userMode = false) (index : Fin 3)
      (runnable : (machine.console.terminals index).activeProcess ≠ -1) :
      StepCase fs machine log .schedule
        (let pid := (machine.console.terminals index).activeProcess.toNat
        ⟨dispatch index pid machine.saveContext,
          .resume pid (machine.saveContext.pcb (getProcessPCB pid)).context ::
            .suspend machine.currProcess
              (machine.saveContext.pcb (getCurrentProcessPCB machine.cpu.esp)).context :: log⟩)
  | unchanged (kernel : machine.cpu.userMode = false) (next : Nat) :
      StepCase fs machine log (.switchTerminal next) ⟨machine, log⟩
  | shown (kernel : machine.cpu.userMode = false) (next : Fin 3)
      (hidden : next ≠ machine.console.activeTerminalIndex)
      (occupied : (machine.console.terminals next).activeProcess ≠ -1) :
      StepCase fs machine log (.switchTerminal next)
        ⟨setActiveTerminal next (switchScreens next machine), log⟩
  | seeded (kernel : machine.cpu.userMode = false) (next : Fin 3)
      (hidden : next ≠ machine.console.activeTerminalIndex)
      (vacant : (machine.console.terminals next).activeProcess = -1)
      (slot : Nat) (free : machine.freeSlot = some slot) (frames : Nat → Nat → UInt8) :
      StepCase fs machine log (.switchTerminal next)
        ⟨shellMachine machine next slot frames,
          .seed (slot + 1)
            ((shellMachine machine next slot frames).pcb (getProcessPCB (slot + 1))).context ::
              log⟩

/-- The log of a switch depends on whether the shown terminal has gained a process. -/
theorem switchActions_same {machine after : Machine} {next : Nat} (same : ∀ terminal,
    (after.console.terminals terminal).activeProcess =
      (machine.console.terminals terminal).activeProcess) :
    switchActions next machine after = [] := by
  unfold switchActions
  split
  · dsimp only
    rw [same, if_neg]
    intro gained
    exact gained.2 gained.1
  · rfl

/-- The exchange of the screens keeps all processes. -/
theorem switchScreens_activeProcess (machine : Machine) (next terminal : Fin 3) :
    ((switchScreens next machine).console.terminals terminal).activeProcess =
      (machine.console.terminals terminal).activeProcess := by
  unfold switchScreens showTerminal Console.moveCursor Console.setTerminal
  simp only [Function.update_apply]
  split_ifs <;> simp_all

theorem map_ok {First Second : Type*} {call : Except Stop First} {change : First → Second}
    {result : Second} (finished : call.map change = .ok result) :
    ∃ value, call = .ok value ∧ change value = result := by
  cases call with
  | error stop => cases finished
  | ok value =>
      cases finished
      exact ⟨value, rfl, rfl⟩

theorem step_execute {fs : FileSystem} {machine : Machine} {log : List Action}
    {command : Option CString} {stack : List UInt8} {outcome : Outcome}
    (kernel : machine.cpu.userMode = false)
    (call : execute fs command stack machine = .ok outcome) :
    StepCase fs machine log (.execute command stack)
      ⟨outcome.machine, executeActions outcome ++ log⟩ := by
  rcases execute_cases call with ⟨_, rfl⟩ | ⟨slot, change, frames, free, rfl | rfl⟩
  · exact .refused kernel _
  · exact .failed kernel command stack slot free change frames
  · exact .started kernel command stack slot free change frames call

theorem step_halt {fs : FileSystem} {machine : Machine} {log : List Action} {outcome : Outcome}
    (kernel : machine.cpu.userMode = false) (call : halt machine = .ok outcome) :
    StepCase fs machine log .halt ⟨outcome.machine, haltActions outcome ++ log⟩ := by
  obtain ⟨fileArray, ⟨root, rfl⟩ | ⟨child, rfl⟩⟩ := halt_cases call
  · exact .restarted kernel fileArray root
  · exact .left kernel fileArray child

theorem step_vidmap {fs : FileSystem} {machine : Machine} {log : List Action} (screenStart : Nat)
    (kernel : machine.cpu.userMode = false) :
    StepCase fs machine log (.vidmap screenStart) ⟨(vidmap screenStart machine).machine,
      vidmapActions (vidmap screenStart machine) ++ log⟩ := by
  by_cases outside : screenStart = 0 ∨ screenStart > mb128 + mb4 - 4 ∨ screenStart < mb128
  · have rejected : vidmap screenStart machine = ⟨machine.cli, .returned (-1)⟩ := if_pos outside
    rw [rejected]
    exact .refused kernel _
  · have accepted : (vidmap screenStart machine).transfer = .returned 0 := by
      rw [vidmap, if_neg outside]
    have same : (vidmap screenStart machine).machine.currProcess = machine.currProcess := by
      rw [vidmap, if_neg outside]
    rw [vidmapActions, if_pos accepted, same]
    exact .mapped kernel screenStart (by omega)

theorem dispatch_currProcess (index : Fin 3) (pid : Nat) (machine : Machine) :
    (dispatch index pid machine).currProcess = pid := by
  unfold dispatch
  dsimp only
  split_ifs <;> rfl

theorem step_schedule {fs : FileSystem} {machine after : Machine} {log : List Action}
    (kernel : machine.cpu.userMode = false) (call : schedule machine = .ok after) :
    StepCase fs machine log .schedule ⟨after, scheduleActions machine after ++ log⟩ := by
  obtain ⟨index, runnable, rfl⟩ := schedule_ok call
  unfold scheduleActions
  rw [dispatch_currProcess]
  exact .resumed kernel index runnable

theorem step_switch {fs : FileSystem} {machine after : Machine} {log : List Action} {target : Nat}
    (kernel : machine.cpu.userMode = false) (call : switchTerminal fs target machine = .ok after) :
    StepCase fs machine log (.switchTerminal target)
      ⟨after, switchActions target machine after ++ log⟩ := by
  rcases switchTerminal_cases call with ⟨_, rfl⟩ | ⟨inRange, hidden, shown⟩
  · rw [switchActions_same fun _ => rfl]
    exact .unchanged kernel target
  · rcases shown with ⟨occupied, rfl⟩ | ⟨vacant, ⟨full, rfl⟩ | ⟨slot, frames, free, rfl⟩⟩
    · have silent : switchActions target machine (setActiveTerminal ⟨target, inRange⟩
          (switchScreens ⟨target, inRange⟩ machine)) = [] :=
        switchActions_same fun terminal => switchScreens_activeProcess machine _ terminal
      rw [silent]
      exact .shown kernel ⟨target, inRange⟩ hidden occupied
    · have silent : switchActions target machine machine.cli = [] :=
        switchActions_same fun _ => rfl
      rw [silent]
      exact .refused kernel _
    · have gained : ((shellMachine machine ⟨target, inRange⟩ slot frames).console.terminals
          ⟨target, inRange⟩).activeProcess = (slot + 1 : Nat) :=
        Machine.setActiveProcess_self ..
      unfold switchActions
      rw [dif_pos inRange, gained, if_pos ⟨vacant, by omega⟩]
      exact .seeded kernel ⟨target, inRange⟩ hidden vacant slot free frames

/-- Every step of the system is one of the listed cases. -/
theorem step_cases {fs : FileSystem} {system next : System} {event : Event}
    (finished : step fs system event = .ok next) :
    StepCase fs system.machine system.log event next := by
  obtain ⟨machine, log⟩ := system
  cases event <;> simp only [step] at finished <;> split at finished
  case kernelStack.isTrue esp ebp inside =>
    cases finished
    exact .moved esp ebp inside.1 inside.2
  case userReturn.isFalse kernel =>
    cases finished
    exact .returned (by simpa using kernel)
  case execute.isFalse command stack kernel =>
    obtain ⟨outcome, call, rfl⟩ := map_ok finished
    exact step_execute (by simpa using kernel) call
  case halt.isFalse kernel =>
    obtain ⟨outcome, call, rfl⟩ := map_ok finished
    exact step_halt (by simpa using kernel) call
  case vidmap.isFalse screenStart kernel =>
    cases finished
    exact step_vidmap screenStart (by simpa using kernel)
  case schedule.isFalse kernel =>
    obtain ⟨after, call, rfl⟩ := map_ok finished
    exact step_schedule (by simpa using kernel) call
  case switchTerminal.isFalse target kernel =>
    obtain ⟨after, call, rfl⟩ := map_ok finished
    exact step_switch (by simpa using kernel) call
  all_goals cases finished

end ComputerSystems.Kernel
