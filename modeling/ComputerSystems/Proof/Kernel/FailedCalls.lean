import ComputerSystems.Proof.Kernel.ContextSwitch

namespace ComputerSystems.Kernel
open ComputerSystems.Library

/-- The calls that can refuse their work and return. -/
inductive RefusableCall where
  | execute (command : Option CString) (stack : List UInt8)
  | vidmap (screenStart : Nat)
  | switchTerminal (nextTerminalIndex : Nat)

namespace RefusableCall

/-- The call returns without its effect and leaves a machine. -/
def Refused (fs : FileSystem) (machine after : Machine) : RefusableCall → Prop
  | .execute command stack => Kernel.execute fs command stack machine = .ok ⟨after, .returned (-1)⟩
  | .vidmap screenStart => Kernel.vidmap screenStart machine = ⟨after, .returned (-1)⟩
  | .switchTerminal next => Kernel.switchTerminal fs next machine = .ok after ∧
      after.console.activeTerminalIndex = machine.console.activeTerminalIndex

/-- A switch to no terminal or to the shown one returns before it turns interrupts off. -/
def StopsEarly (machine : Machine) : RefusableCall → Prop
  | .switchTerminal next => next < 3 → next = machine.console.activeTerminalIndex
  | _ => False

end RefusableCall

/-- Some process runs: its slot is active and its page directory is loaded. -/
structure ProcessRuns (machine : Machine) : Prop where
  positive : 1 ≤ machine.currProcess
  active : machine.active (machine.currProcess - 1) = true
  directory : machine.cpu.cr3 = machine.currProcess - 1

/-- The parts of the kernel state that a refused call has to keep, but for the interrupt flag. -/
structure SameTables (machine after : Machine) : Prop where
  active : after.active = machine.active
  currProcess : after.currProcess = machine.currProcess
  terminals : after.console.terminals = machine.console.terminals
  activeTerminalIndex : after.console.activeTerminalIndex = machine.console.activeTerminalIndex
  pageDirectoryArray : after.pageDirectoryArray = machine.pageDirectoryArray
  firstPageTable : after.firstPageTable = machine.firstPageTable
  videoMemPageTable : after.videoMemPageTable = machine.videoMemPageTable
  directory : after.cpu.cr3 = machine.cpu.cr3
  esp0 : after.cpu.esp0 = machine.cpu.esp0
  blocks : ∀ slot < numMaxProcesses, machine.active slot = true →
    after.pcb (getProcessPCB (slot + 1)) = machine.pcb (getProcessPCB (slot + 1))

structure SameKernel (machine after : Machine) : Prop extends SameTables machine after where
  interruptFlag : after.cpu.interruptFlag = machine.cpu.interruptFlag

theorem sameTables_refl (machine : Machine) : SameTables machine machine :=
  ⟨rfl, rfl, rfl, rfl, rfl, rfl, rfl, rfl, rfl, fun _ _ _ => rfl⟩

theorem sameTables_cli (machine : Machine) : SameTables machine machine.cli :=
  { sameTables_refl machine with }

/-- A failed load has written only to the block and the page of a free slot. -/
theorem sameTables_prepared {machine : Machine} (runs : ProcessRuns machine) {slot : Nat}
    (free : machine.freeSlot = some slot) (change : Pcb → Pcb) (frames : Nat → Nat → UInt8) :
    SameTables machine (prepared machine slot change frames (machine.currProcess - 1)) := by
  obtain ⟨small, idle⟩ := freeSlot_eq_some free
  constructor
  case directory => exact runs.directory.symm
  case blocks =>
    intro other below active
    apply machine.updatePcb_pcb_of_ne
    intro same
    have equal := getProcessPCB_injective (Nat.succ_le_of_lt below) (by omega) same
    rw [Nat.succ_injective equal, idle] at active
    exact Bool.false_ne_true active
  all_goals rfl

theorem setActiveTerminal_activeTerminalIndex (next : Fin 3) (machine : Machine) :
    (setActiveTerminal next machine).console.activeTerminalIndex = next := rfl

theorem shellMachine_activeTerminalIndex (machine : Machine) (next : Fin 3) (slot : Nat)
    (frames : Nat → Nat → UInt8) :
    (shellMachine machine next slot frames).console.activeTerminalIndex = next := rfl

/-- A refused call keeps the tables, and it leaves interrupts off unless it stops early. -/
theorem RefusableCall.Refused.cases {fs : FileSystem} {machine after : Machine}
    {call : RefusableCall} (refused : call.Refused fs machine after)
    (runs : ProcessRuns machine) : SameTables machine after ∧
      ((call.StopsEarly machine ∧ after = machine) ∨
        (¬call.StopsEarly machine ∧ after.cpu.interruptFlag = false)) := by
  cases call with
  | execute command stack =>
      rcases execute_cases refused with ⟨_, failed⟩ | ⟨slot, change, frames, free, failed | started⟩
      · cases failed
        exact ⟨sameTables_cli machine, .inr ⟨id, rfl⟩⟩
      · cases failed
        exact ⟨sameTables_prepared runs free change frames, .inr ⟨id, rfl⟩⟩
      · cases started
  | vidmap screenStart =>
      simp only [Refused, Kernel.vidmap] at refused
      split at refused
      · cases refused
        exact ⟨sameTables_cli machine, .inr ⟨id, rfl⟩⟩
      · cases refused
  | switchTerminal next =>
      obtain ⟨finished, shown⟩ := refused
      rcases switchTerminal_cases finished with ⟨early, rfl⟩ | ⟨inRange, hidden, taken⟩
      · exact ⟨sameTables_refl _, .inl ⟨early, rfl⟩⟩
      · rcases taken with ⟨_, switched⟩ | ⟨_, ⟨_, rfl⟩ | ⟨slot, frames, _, switched⟩⟩
        · rw [switched, setActiveTerminal_activeTerminalIndex] at shown
          exact absurd shown hidden
        · have late : ¬(switchTerminal next).StopsEarly machine :=
            fun early => hidden (Fin.ext (early inRange))
          exact ⟨sameTables_cli machine, .inr ⟨late, rfl⟩⟩
        · rw [switched, shellMachine_activeTerminalIndex] at shown
          exact absurd shown hidden

/-- A refused call leaves the kernel as it was exactly when interrupts were off before, or when it
stops before it turns them off. -/
theorem refused_sameKernel_iff (fs : FileSystem) (machine after : Machine) (call : RefusableCall)
    (runs : ProcessRuns machine) (refused : call.Refused fs machine after) :
    SameKernel machine after ↔
      machine.cpu.interruptFlag = false ∨ call.StopsEarly machine := by
  obtain ⟨tables, ⟨early, rfl⟩ | ⟨late, off⟩⟩ := refused.cases runs
  · exact ⟨fun _ => .inr early, fun _ => ⟨tables, rfl⟩⟩
  · constructor
    · intro same
      rw [← same.interruptFlag]
      exact .inl off
    · intro entry
      rcases entry with masked | early
      · exact ⟨tables, off.trans masked.symm⟩
      · exact absurd early late

/-- A machine on which only the first process runs. -/
def oneProcess (interruptFlag : Bool) : Machine :=
  { coldMachine with
    active := fun slot => slot == 0
    currProcess := 1
    cpu := ⟨0, 0, 0, 0, false, interruptFlag⟩ }

theorem oneProcess_runs (interruptFlag : Bool) : ProcessRuns (oneProcess interruptFlag) :=
  ⟨Nat.le_refl 1, rfl, rfl⟩

/-- A call of `vidmap` with a null pointer, which is refused with interrupts off and on. -/
theorem refused_sameKernel_vidmap :
    SameKernel (oneProcess false) (vidmap 0 (oneProcess false)).machine ∧
      ¬SameKernel (oneProcess true) (vidmap 0 (oneProcess true)).machine := by
  have masked := refused_sameKernel_iff shellImage (oneProcess false) _ (.vidmap 0)
    (oneProcess_runs false) rfl
  have unmasked := refused_sameKernel_iff shellImage (oneProcess true) _ (.vidmap 0)
    (oneProcess_runs true) rfl
  refine ⟨masked.2 (.inl rfl), fun same => ?_⟩
  rcases unmasked.1 same with off | early
  · exact Bool.false_ne_true off.symm
  · exact early

/-- With interrupts on, a refused `vidmap` does not leave the kernel as it was. -/
theorem vidmap_not_sameKernel : ∃ (machine after : Machine), ProcessRuns machine ∧
    (RefusableCall.vidmap 0).Refused shellImage machine after ∧ ¬SameKernel machine after := by
  refine ⟨oneProcess true, (oneProcess true).cli, oneProcess_runs true, rfl, fun same => ?_⟩
  exact Bool.false_ne_true same.interruptFlag

end ComputerSystems.Kernel
