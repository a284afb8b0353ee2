import ComputerSystems.Library.Rotation
import ComputerSystems.Proof.Kernel.ContextSwitch

namespace ComputerSystems.Kernel
open ComputerSystems.Library

def Event.isSchedule : Event → Bool
  | .schedule => true
  | _ => false

namespace Machine

/-- Whether a terminal has a process. -/
def occupied (machine : Machine) (terminal : Fin 3) : Bool :=
  (machine.console.terminals terminal).activeProcess != -1

theorem nextTerminal_eq (machine : Machine) :
    machine.nextTerminal = nextLive machine.occupied machine.terminalIter := by
  unfold nextTerminal nextLive occupied
  congr 1
  funext slot
  rw [bne, Bool.not_not]

theorem occupied_of_ne {machine : Machine} {terminal : Fin 3}
    (some : (machine.console.terminals terminal).activeProcess ≠ -1) :
    machine.occupied terminal = true :=
  bne_iff_ne.2 some

/-- A process on one terminal leaves no terminal empty. -/
theorem setActiveProcess_occupied (machine : Machine) (index : Fin 3) (pid : Nat)
    {terminal : Fin 3} (some : machine.occupied terminal = true) :
    (machine.setActiveProcess index pid).occupied terminal = true := by
  unfold occupied at *
  by_cases own : terminal = index
  · rw [own, setActiveProcess_self, bne_iff_ne]
    omega
  · rw [setActiveProcess_of_ne _ own]
    exact some

end Machine

section Ticks

variable {fs : FileSystem} {machine after : Machine} {terminal : Fin 3}

theorem dispatch_terminalIter (index : Fin 3) (pid : Nat) (machine : Machine) :
    (dispatch index pid machine).terminalIter = index := by
  unfold dispatch
  dsimp only
  split_ifs <;> rfl

/-- A tick goes to the next terminal that has a process. -/
theorem schedule_next (some : machine.occupied terminal = true) :
    (machine.occupied machine.nextTerminal = true) ∧ schedule machine = .ok
      (dispatch machine.nextTerminal
        (machine.console.terminals machine.nextTerminal).activeProcess.toNat
        machine.saveContext) := by
  have next : machine.occupied machine.nextTerminal = true := by
    rw [machine.nextTerminal_eq]
    exact nextLive_live some _
  refine ⟨next, ?_⟩
  have same : machine.saveContext.nextTerminal = machine.nextTerminal := rfl
  rw [schedule, same]
  exact if_neg (bne_iff_ne.1 next)

/-- No other event moves the iterator or empties a terminal. -/
theorem StepCase.occupied {log : List Action} {event : Event} {next : System}
    (stepped : StepCase fs machine log event next) (other : event.isSchedule = false)
    (some : machine.occupied terminal = true) :
    next.machine.occupied terminal = true ∧ next.machine.terminalIter = machine.terminalIter := by
  cases stepped with
  | moved | returned | refused | failed | restarted | unchanged => exact ⟨some, rfl⟩
  | started kernel command stack slot free change frames call =>
      exact ⟨Machine.setActiveProcess_occupied _ _ (slot + 1) some, rfl⟩
  | left kernel fileArray child =>
      exact ⟨Machine.setActiveProcess_occupied _ _ _ some, rfl⟩
  | mapped kernel screenStart inPage =>
      unfold vidmap
      split <;> exact ⟨some, rfl⟩
  | resumed => cases other
  | shown kernel shown hidden occupied =>
      refine ⟨?_, rfl⟩
      have same := switchScreens_activeProcess machine shown terminal
      unfold Machine.occupied setActiveTerminal
      dsimp only
      rw [same]
      exact some
  | seeded kernel shown hidden vacant slot free frames =>
      refine ⟨?_, rfl⟩
      refine Machine.setActiveProcess_occupied _ shown (slot + 1) ?_
      have same := switchScreens_activeProcess machine shown terminal
      show ((switchScreens shown machine).console.terminals terminal).activeProcess != -1
      rw [same]
      exact some

/-- The turn of a terminal: its active process runs. -/
def Turn (terminal : Fin 3) (before : System) (next : System) : Prop :=
  next.machine.terminalIter = terminal ∧
    (next.machine.currProcess : Int) =
      (before.machine.console.terminals terminal).activeProcess ∧
    next.machine.cpu.cr3 = next.machine.currProcess - 1 ∧
    next.machine.cpu.esp0 = getKernelStackBottom next.machine.currProcess

/-- A tick takes the turn of a terminal or brings it nearer. -/
theorem tick_nearer {system next : System} {shells : Stacks (Fin 3) Nat}
    (running : Running system.machine shells) (some : system.machine.occupied terminal = true)
    (stepped : step fs system .schedule = .ok next) :
    Turn terminal system next ∨ next.machine.occupied terminal = true ∧
      gap next.machine.terminalIter terminal < gap system.machine.terminalIter terminal := by
  obtain ⟨machine, log⟩ := system
  obtain ⟨live, scheduled⟩ := schedule_next some
  have result : next.machine = dispatch machine.nextTerminal
      (machine.console.terminals machine.nextTerminal).activeProcess.toNat machine.saveContext := by
    rw [step] at stepped
    dsimp only at stepped scheduled
    split_ifs at stepped with mode
    rw [scheduled] at stepped
    cases stepped
    rfl
  have iterator : next.machine.terminalIter = machine.nextTerminal := by
    rw [result, dispatch_terminalIter]
  have nearer := gap_nextLive some machine.terminalIter
  rw [← machine.nextTerminal_eq] at nearer
  rcases nearer with turn | closer
  · left
    obtain ⟨pid, rest, top, active⟩ := running.occupied (bne_iff_ne.1 some)
    dsimp only at active
    have process : next.machine.currProcess = pid := by
      rw [result, dispatch_currProcess, turn, active, Int.toNat_natCast]
    refine ⟨iterator.trans turn, ?_, ?_, ?_⟩
    · rw [process, active]
    · rw [result, dispatch_cr3, dispatch_currProcess]
    · rw [result, (dispatch_fields _ _ _).2.2.2, dispatch_currProcess]
  · right
    refine ⟨?_, ?_⟩
    · rw [result, Machine.occupied, (dispatch_fields _ _ _).1]
      exact some
    · rw [iterator]
      exact closer

end Ticks

/-- In every reachable state a tick of the scheduler succeeds. In every run from there with three
ticks or more, each terminal with a process gets one of the first three: its active process runs. -/
theorem schedule_fair {fs : FileSystem} {system final : System} {events : List Event}
    (reachable : Reachable fs system) (reached : run (step fs) system events = .ok final) :
    (system.machine.cpu.userMode = false → ∃ next, step fs system .schedule = .ok next) ∧
      ∀ terminal, (system.machine.console.terminals terminal).activeProcess ≠ -1 →
        3 ≤ events.countP Event.isSchedule →
          ∃ before after middle next, events = before ++ .schedule :: after ∧
            before.countP Event.isSchedule ≤ 2 ∧ run (step fs) system before = .ok middle ∧
              step fs middle .schedule = .ok next ∧ Turn terminal middle next := by
  have running := running_reachable reachable
  constructor
  · intro kernel
    obtain ⟨shells, running⟩ := running
    obtain ⟨terminal, rest, top⟩ := running.current
    have head := running.heads terminal
    rw [top] at head
    have some : system.machine.occupied terminal = true := by
      refine Machine.occupied_of_ne ?_
      rw [head, headPid]
      omega
    obtain ⟨machine, log⟩ := system
    rw [step]
    dsimp only at kernel some ⊢
    rw [if_neg (by rw [kernel]; decide), (schedule_next some).2]
    exact ⟨_, rfl⟩
  · intro terminal some enough
    have bound := gap_le system.machine.terminalIter terminal
    obtain ⟨before, event, after, middle, next, shape, few, tick, passed, stepped, turn⟩ :=
      served_within Event.isSchedule
        (fun system => (∃ shells, Running system.machine shells) ∧
          system.machine.occupied terminal = true)
        (fun system => gap system.machine.terminalIter terminal)
        (fun before _ next => Turn terminal before next)
        (fun system event next held other stepped => by
          obtain ⟨⟨shells, running⟩, some⟩ := held
          have listed := step_cases stepped
          obtain ⟨kept, iterator⟩ := listed.occupied other some
          exact ⟨⟨running.step listed, kept⟩, by rw [iterator]⟩)
        (fun system event next held tick stepped => by
          obtain ⟨⟨shells, running⟩, some⟩ := held
          cases event with
          | schedule =>
              rcases tick_nearer running some stepped with turn | ⟨kept, nearer⟩
              · exact .inl turn
              · exact .inr ⟨⟨running.step (step_cases stepped), kept⟩, nearer⟩
          | _ => cases tick)
        ⟨running, Machine.occupied_of_ne some⟩ reached (by omega)
    cases event with
    | schedule => exact ⟨before, after, middle, next, shape, by omega, passed, stepped, turn⟩
    | _ => cases tick

/-- A shell on the second terminal, and three ticks. -/
def turnEvents : List Event :=
  [.kernelStack 0x7FD000 0x7FD000, .switchTerminal 1, .schedule, .kernelStack 0x7FB000 0x7FB000,
    .execute (some shellName) [], .kernelStack 0x7F9000 0x7F9000, .schedule, .schedule]

theorem schedule_fair_turnEvents : ∃ system final : System,
    run (step shellImage) system turnEvents = .ok final ∧
      ∃ before after middle next, turnEvents = before ++ .schedule :: after ∧
        before.countP Event.isSchedule ≤ 2 ∧ run (step shellImage) system before = .ok middle ∧
          step shellImage middle .schedule = .ok next ∧ Turn 0 middle next := by
  have passed : bootCheck shellImage coldMachine bootStack [] (step shellImage) turnEvents
      (fun initial _ => (initial.machine.console.terminals 0).activeProcess != -1) = true := by
    decide +kernel
  obtain ⟨initial, final, booted, reached, some⟩ := bootCheck_sound passed
  have reachable : Reachable shellImage initial :=
    ⟨coldMachine, bootStack, [], [], initial, booted, rfl⟩
  exact ⟨initial, final, reached,
    (schedule_fair reachable reached).2 0 (bne_iff_ne.1 some) (by decide)⟩

end ComputerSystems.Kernel
