import ComputerSystems.Construction.Kernel.Scheduler
import ComputerSystems.Library.Run

namespace ComputerSystems.Kernel
open ComputerSystems.Library

/-- The saved registers of a process. -/
structure Context where
  eip : CodeAddress
  esp : Nat
  ebp : Nat
  userMode : Bool
  deriving DecidableEq

def Pcb.context (pcb : Pcb) : Context :=
  ⟨pcb.currentEip, pcb.currentEsp, pcb.currentEbp, pcb.isUserMode⟩

/-- What happens to a process: it starts to run in a new slot, it gets a context in a new slot,
it is suspended or resumed by the scheduler, it continues after its child has halted, it starts
again as a root shell, or it maps the video page. -/
inductive Action where
  | start (pid : Nat)
  | seed (pid : Nat) (context : Context)
  | suspend (pid : Nat) (context : Context)
  | resume (pid : Nat) (context : Context)
  | continued (pid : Nat)
  | restart (pid : Nat)
  | vidmapped (pid : Nat)
  deriving DecidableEq

/-- The steps of the machine. The kernel moves its stack registers between the calls, and an
entry from user mode starts at the stack of the task segment. -/
inductive Event where
  | kernelStack (esp ebp : Nat)
  | userReturn
  | execute (command : Option CString) (stack : List UInt8)
  | halt
  | vidmap (screenStart : Nat)
  | schedule
  | switchTerminal (nextTerminalIndex : Nat)

/-- The log keeps the actions with the last one first. -/
structure System where
  machine : Machine
  log : List Action

/-- The stack pointer of the next kernel frame. -/
def Machine.stackOwner (machine : Machine) : Nat :=
  if machine.cpu.userMode then machine.cpu.esp0 else machine.cpu.esp

/-- A successful `execute` starts the child. -/
def executeActions (outcome : Outcome) : List Action :=
  match outcome.transfer with
  | .returned _ => []
  | _ => [.start outcome.machine.currProcess]

def haltActions (outcome : Outcome) : List Action :=
  match outcome.transfer with
  | .toUser _ _ _ => [.restart outcome.machine.currProcess]
  | _ => [.continued outcome.machine.currProcess]

def vidmapActions (outcome : Outcome) : List Action :=
  if outcome.transfer = .returned 0 then [.vidmapped outcome.machine.currProcess] else []

/-- One call of `schedule` suspends the current process and resumes the next. -/
def scheduleActions (before after : Machine) : List Action :=
  let saved := before.saveContext
  [.resume after.currProcess (saved.pcb (getProcessPCB after.currProcess)).context,
    .suspend before.currProcess (saved.pcb (getCurrentProcessPCB before.cpu.esp)).context]

/-- A switch that gives an empty terminal its first process seeds that process. -/
def switchActions (next : Nat) (before after : Machine) : List Action :=
  if inRange : next < 3 then
    let pid := (after.console.terminals ⟨next, inRange⟩).activeProcess
    if (before.console.terminals ⟨next, inRange⟩).activeProcess = -1 ∧ pid ≠ -1 then
      [.seed pid.toNat (after.pcb (getProcessPCB pid.toNat)).context]
    else []
  else []

/-- The kernel calls run in kernel mode. -/
def step (fs : FileSystem) (system : System) (event : Event) : Except Stop System :=
  let machine := system.machine
  match event with
  | .kernelStack esp ebp =>
      let owner := getCurrentProcessPCB machine.stackOwner
      if getCurrentProcessPCB esp = owner ∧ getCurrentProcessPCB ebp = owner then
        .ok { system with machine := { machine with
          cpu := { machine.cpu with esp := esp, ebp := ebp, userMode := false } } }
      else .error .blocked
  | .userReturn =>
      if machine.cpu.userMode then .error .blocked
      else .ok { system with machine := machine.contextSwitch }
  | .execute command stack =>
      if machine.cpu.userMode then .error .blocked
      else (execute fs command stack machine).map fun outcome =>
        ⟨outcome.machine, executeActions outcome ++ system.log⟩
  | .halt =>
      if machine.cpu.userMode then .error .blocked
      else (halt machine).map fun outcome =>
        ⟨outcome.machine, haltActions outcome ++ system.log⟩
  | .vidmap screenStart =>
      if machine.cpu.userMode then .error .blocked
      else
        let outcome := vidmap screenStart machine
        .ok ⟨outcome.machine, vidmapActions outcome ++ system.log⟩
  | .schedule =>
      if machine.cpu.userMode then .error .blocked
      else (schedule machine).map fun after =>
        ⟨after, scheduleActions machine after ++ system.log⟩
  | .switchTerminal next =>
      if machine.cpu.userMode then .error .blocked
      else (switchTerminal fs next machine).map fun after =>
        ⟨after, switchActions next machine after ++ system.log⟩

/-- The kernel stack during the boot lies above the zeroed block of process zero. -/
structure BootStack where
  esp : Nat
  ebp : Nat
  inBlock : getCurrentProcessPCB esp = getProcessPCB 0

/-- The block of process zero before the first process starts. -/
def zeroPcb : Pcb where
  fileArray := fun _ => ⟨.null, 0, 0, .fileOccup⟩
  parentNum := 0
  parentEsp := 0
  currentEsp := 0
  parentEbp := 0
  currentEbp := 0
  currentEip := .address 0
  execRetAddr := .address 0
  rtcCount := 0
  arg := fun _ => 0
  numCharInArg := 0
  terminalIndex := 0
  isUserMode := false

/-- The machine as the start-up code of the kernel leaves it. -/
def startUp (machine : Machine) (stack : BootStack) : Machine :=
  initPaging { machine with
    console := initTerminals machine.console
    active := fun _ => false
    currProcess := 0
    terminalIter := 0
    pcb := Function.update machine.pcb (getProcessPCB 0) zeroPcb
    videoMemPageTable := fun _ _ => 0
    cpu := ⟨0, 0x800000, stack.esp, stack.ebp, false, false⟩ }

/-- The first `execute` starts the first shell. The kernel tries again after a failure. -/
def boot (fs : FileSystem) (machine : Machine) (stack : BootStack) (beyond : List UInt8) :
    Except Stop System :=
  match execute fs (some shellName) beyond (startUp machine stack) with
  | .error stop => .error stop
  | .ok outcome =>
      match outcome.transfer with
      | .returned _ => .error .blocked
      | _ => .ok ⟨outcome.machine, executeActions outcome⟩

/-- Whether a run after a boot passes a check of its first and last states. -/
def bootCheck {Label : Type} (fs : FileSystem) (machine : Machine) (stack : BootStack)
    (beyond : List UInt8) (step : System → Label → Except Stop System) (events : List Label)
    (check : System → System → Bool) : Bool :=
  match boot fs machine stack beyond with
  | .error _ => false
  | .ok initial => runCheck step initial events (check initial)

theorem bootCheck_sound {Label : Type} {fs : FileSystem} {machine : Machine} {stack : BootStack}
    {beyond : List UInt8} {step : System → Label → Except Stop System} {events : List Label}
    {check : System → System → Bool}
    (passed : bootCheck fs machine stack beyond step events check = true) :
    ∃ initial system, boot fs machine stack beyond = .ok initial ∧
      run step initial events = .ok system ∧ check initial system = true := by
  unfold bootCheck at passed
  cases booted : boot fs machine stack beyond with
  | error stop =>
      rw [booted] at passed
      cases passed
  | ok initial =>
      rw [booted] at passed
      obtain ⟨system, reached, checked⟩ := runCheck_sound passed
      exact ⟨initial, system, rfl, reached, checked⟩

/-- The states of all runs after the first process has started. -/
def Reachable (fs : FileSystem) (system : System) : Prop :=
  ∃ machine stack beyond events initial,
    boot fs machine stack beyond = .ok initial ∧ run (step fs) initial events = .ok system

/-- The states of the runs in which every step meets a condition. -/
def ReachableBy (fs : FileSystem) (condition : System → Event → Prop) (system : System) : Prop :=
  ∃ machine stack beyond events initial, boot fs machine stack beyond = .ok initial ∧
    Along condition (step fs) initial events ∧ run (step fs) initial events = .ok system

end ComputerSystems.Kernel
