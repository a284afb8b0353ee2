import ComputerSystems.Proof.Kernel.ProcessSteps

namespace ComputerSystems.Kernel
open ComputerSystems.Library

theorem represents_startUp (machine : Machine) (stack : BootStack) :
    Placed (startUp machine stack) Stacks.empty where
  heads _ := rfl
  links _ := rfl
  bounded _ member := absurd member.choose_spec List.not_mem_nil
  terminal _ _ member := absurd member List.not_mem_nil
  active _ := ⟨fun active => absurd active Bool.false_ne_true,
    fun member => absurd member.choose_spec List.not_mem_nil⟩
  parents _ member := absurd member.choose_spec List.not_mem_nil
  saved _ _ _ top := absurd top (List.cons_ne_nil _ _).symm

/-- The first shell is the only process after the boot. -/
theorem boot_cases {fs : FileSystem} {machine : Machine} {stack : BootStack}
    {beyond : List UInt8} {initial : System} (booted : boot fs machine stack beyond = .ok initial) :
    ∃ slot change frames, (startUp machine stack).freeSlot = some slot ∧
      initial = ⟨(startProcess slot (prepared (startUp machine stack) slot change frames
        slot)).machine, [.start (slot + 1)]⟩ := by
  unfold boot at booted
  cases call : execute fs (some shellName) beyond (startUp machine stack) with
  | error stop =>
      rw [call] at booted
      cases booted
  | ok outcome =>
      rw [call] at booted
      rcases execute_cases call with ⟨_, rfl⟩ | ⟨slot, change, frames, free, rfl | rfl⟩
      · cases booted
      · cases booted
      · cases booted
        exact ⟨slot, change, frames, free, rfl⟩

theorem running_boot {fs : FileSystem} {machine : Machine} {stack : BootStack}
    {beyond : List UInt8} {initial : System} (booted : boot fs machine stack beyond = .ok initial) :
    ∃ shells, Running initial.machine shells := by
  obtain ⟨slot, change, frames, free, rfl⟩ := boot_cases booted
  obtain ⟨small, idle⟩ := freeSlot_eq_some free
  have empty := represents_startUp machine stack
  have placed := empty.undisturbed (empty.undisturbed_prepared free change frames slot)
  exact ⟨_, placed.start small idle rfl fun child => absurd rfl child⟩

theorem running_reachable {fs : FileSystem} {system : System} (reachable : Reachable fs system) :
    ∃ shells, Running system.machine shells := by
  obtain ⟨machine, stack, beyond, events, initial, booted, reached⟩ := reachable
  apply run_invariant (fun system => ∃ shells, Running system.machine shells) _
    (running_boot booted) (along_true (step fs) initial events) reached
  intro system event next running _ stepped
  obtain ⟨shells, running⟩ := running
  exact running.step (step_cases stepped)

/-- The processes of the terminals form disjoint chains that cover all active slots. -/
structure IsTable (machine : Machine) (chain : Fin 3 → List Nat) : Prop where
  vacant : ∀ terminal, (machine.console.terminals terminal).activeProcess = -1 →
    chain terminal = []
  follows : ∀ terminal, (machine.console.terminals terminal).activeProcess ≠ -1 →
    ∃ (pid : Nat) (rest : List Nat), (machine.console.terminals terminal).activeProcess = pid ∧
      chain terminal = pid :: rest ∧
      Links (fun pid => (machine.pcb (getProcessPCB pid)).parentNum) 0 pid (chain terminal)
  nodup : ∀ terminal, (chain terminal).Nodup
  sound : ∀ terminal, ∀ pid ∈ chain terminal, 1 ≤ pid ∧ pid ≤ numMaxProcesses ∧
    machine.active (pid - 1) = true ∧
    (machine.pcb (getProcessPCB pid)).terminalIndex = terminal
  disjoint : ∀ first second, first ≠ second → List.Disjoint (chain first) (chain second)
  covered : ∀ slot, machine.active slot = true → ∃! terminal, slot + 1 ∈ chain terminal
  current : ∃ terminal, (machine.console.terminals terminal).activeProcess = machine.currProcess

def ProcessTable (machine : Machine) : Prop := ∃ chain, IsTable machine chain

theorem Running.isTable {machine : Machine} {shells : Stacks (Fin 3) Nat}
    (running : Running machine shells) : IsTable machine shells.stack where
  vacant _ none := running.vacant none
  follows terminal some := by
    obtain ⟨pid, rest, top, active⟩ := running.occupied some
    have linked := running.links terminal
    rw [top] at linked
    exact ⟨pid, rest, active, top, by rw [top]; exact linked⟩
  nodup := shells.nodup
  sound terminal pid member := by
    have positive := running.ne_zero ⟨terminal, member⟩
    have slot : pid - 1 + 1 = pid := by omega
    have active := (running.active (pid - 1)).2 (by rw [slot]; exact ⟨terminal, member⟩)
    exact ⟨by omega, running.bounded pid ⟨terminal, member⟩, active,
      running.terminal terminal pid member⟩
  disjoint first second different := by
    intro pid member also
    exact different (shells.disjoint first second pid member also)
  covered slot active := by
    obtain ⟨terminal, member⟩ := (running.active slot).1 active
    exact ⟨terminal, member, fun other also => shells.disjoint other terminal _ also member⟩
  current := by
    obtain ⟨terminal, rest, top⟩ := running.current
    exact ⟨terminal, by rw [running.heads terminal, top]; rfl⟩

/-- In every reachable state the process table is well formed. -/
theorem processTable_reachable {fs : FileSystem} {system : System}
    (reachable : Reachable fs system) : ProcessTable system.machine := by
  obtain ⟨shells, running⟩ := running_reachable reachable
  exact ⟨shells.stack, running.isTable⟩

/-- An image whose only file is a program of four bytes with the name `shell`. -/
def shellImage : FileSystem where
  memory address := (([(4, 1), (8, 1), (64, 115), (65, 104), (66, 101), (67, 108), (68, 108),
    (96, 2), (4096, 4), (8192, 0x7F), (8193, 0x45), (8194, 0x4C), (8195, 0x46)] :
      List (Nat × UInt8)).lookup address).getD 0
  fsPtr := 0

/-- A machine before the kernel starts. -/
def coldMachine : Machine where
  console := ⟨fun _ => ⟨fun _ => 0, 0, 0, 0, 0, 0, 0, 0⟩, 0, fun _ => 0, none⟩
  keyboard := ⟨false, false, false, false, false, false, false, false⟩
  active := fun _ => false
  currProcess := 0
  terminalIter := 0
  pcb := fun _ => zeroPcb
  pageDirectoryArray := fun _ _ => ⟨.frame 0, 0⟩
  firstPageTable := fun _ => 0
  videoMemPageTable := fun _ _ => 0
  frames := fun _ _ => 0
  cpu := ⟨0, 0, 0, 0, false, false⟩

def bootStack : BootStack := ⟨0x7FFFF0, 0x7FFFF0, by decide +kernel⟩

/-- A shell on the second terminal, and a child of the first shell that halts again. -/
def shellEvents : List Event :=
  [.kernelStack 0x7FD000 0x7FD000, .switchTerminal 1, .execute (some shellName) [],
    .kernelStack 0x7F9000 0x7F9000, .schedule, .kernelStack 0x7FB000 0x7FB000, .schedule, .halt]

/-- The run in which a child of the first shell halts beside the second shell. -/
theorem processTable_shellEvents :
    ∃ system : System, ProcessTable system.machine ∧ system.machine.currProcess = 1 := by
  have passed : bootCheck shellImage coldMachine bootStack [] (step shellImage) shellEvents
      (fun _ system => system.machine.currProcess == 1) = true := by
    decide +kernel
  obtain ⟨initial, system, booted, reached, current⟩ := bootCheck_sound passed
  exact ⟨system, processTable_reachable ⟨_, _, _, _, initial, booted, reached⟩,
    by simpa using current⟩

end ComputerSystems.Kernel
