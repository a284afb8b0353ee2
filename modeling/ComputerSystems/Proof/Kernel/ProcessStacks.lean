import ComputerSystems.Library.Stacks
import ComputerSystems.Proof.Kernel.Calls

namespace ComputerSystems.Kernel
open ComputerSystems.Library

def Machine.process (machine : Machine) (pid : Nat) : Pcb := machine.pcb (getProcessPCB pid)

theorem Machine.updatePcb_process_self (machine : Machine) (pid : Nat) (change : Pcb → Pcb) :
    (machine.updatePcb (getProcessPCB pid) change).process pid = change (machine.process pid) :=
  updatePcb_pcb_self ..

theorem Machine.updatePcb_process_of_ne (machine : Machine) {pid other : Nat} (small : pid ≤ 6)
    (also : other ≤ 6) (different : other ≠ pid) (change : Pcb → Pcb) :
    (machine.updatePcb (getProcessPCB pid) change).process other = machine.process other :=
  updatePcb_pcb_of_ne machine
    (fun same => different (getProcessPCB_injective also small same)) change

/-- The fields of a block that describe the place of its process among the others. -/
structure Lineage where
  parentNum : Nat
  parentEsp : Nat
  parentEbp : Nat
  terminalIndex : Fin 3

def Pcb.lineage (pcb : Pcb) : Lineage :=
  ⟨pcb.parentNum, pcb.parentEsp, pcb.parentEbp, pcb.terminalIndex⟩

/-- The active process of a terminal is the top of its stack. -/
def headPid : List Nat → Int
  | [] => -1
  | pid :: _ => pid

/-- The machine stores a family of process stacks, one for each terminal. -/
structure Represents (machine : Machine) (shells : Stacks (Fin 3) Nat) : Prop where
  heads : ∀ terminal, (machine.console.terminals terminal).activeProcess =
    headPid (shells.stack terminal)
  links : ∀ terminal, Links (fun pid => (machine.process pid).lineage.parentNum) 0
    ((shells.stack terminal).headD 0) (shells.stack terminal)
  bounded : ∀ pid ∈ shells, pid ≤ 6
  terminal : ∀ terminal, ∀ pid ∈ shells.stack terminal,
    (machine.process pid).lineage.terminalIndex = terminal
  active : ∀ slot, machine.active slot = true ↔ slot + 1 ∈ shells

/-- The stack pointers that the blocks store lie in the blocks of their processes. -/
structure Placed (machine : Machine) (shells : Stacks (Fin 3) Nat) : Prop
    extends Represents machine shells where
  parents : ∀ pid ∈ shells, (machine.process pid).lineage.parentNum ≠ 0 →
    getCurrentProcessPCB (machine.process pid).lineage.parentEsp =
        getProcessPCB (machine.process pid).lineage.parentNum ∧
      getCurrentProcessPCB (machine.process pid).lineage.parentEbp =
        getProcessPCB (machine.process pid).lineage.parentNum
  saved : ∀ terminal pid rest, shells.stack terminal = pid :: rest → pid ≠ machine.currProcess →
    (machine.process pid).context.userMode = false →
      getCurrentProcessPCB (machine.process pid).context.ebp = getProcessPCB pid

/-- The running process is the top of some stack, and the processor works on its behalf. -/
structure Running (machine : Machine) (shells : Stacks (Fin 3) Nat) : Prop
    extends Placed machine shells where
  current : ∃ terminal rest, shells.stack terminal = machine.currProcess :: rest
  esp0 : machine.cpu.esp0 = getKernelStackBottom machine.currProcess
  owner : machine.cpu.userMode = false →
    getCurrentProcessPCB machine.cpu.esp = getProcessPCB machine.currProcess ∧
      getCurrentProcessPCB machine.cpu.ebp = getProcessPCB machine.currProcess

section
variable {machine after : Machine} {shells : Stacks (Fin 3) Nat}

theorem Represents.fresh (represents : Represents machine shells) {slot : Nat}
    (idle : machine.active slot = false) : slot + 1 ∉ shells := by
  intro member
  rw [(represents.active slot).2 member] at idle
  cases idle

theorem Represents.ne_zero (represents : Represents machine shells) {pid : Nat}
    (member : pid ∈ shells) : pid ≠ 0 := by
  obtain ⟨terminal, member⟩ := member
  intro zero
  exact (represents.links terminal).nil_notMem (zero ▸ member)

/-- A terminal without an active process has an empty stack. -/
theorem Represents.vacant (represents : Represents machine shells) {terminal : Fin 3}
    (none : (machine.console.terminals terminal).activeProcess = -1) :
    shells.stack terminal = [] := by
  have head := represents.heads terminal
  rw [none] at head
  cases shape : shells.stack terminal with
  | nil => rfl
  | cons pid rest =>
      rw [shape] at head
      change (-1 : Int) = pid at head
      omega

theorem Represents.occupied (represents : Represents machine shells) {terminal : Fin 3}
    (some : (machine.console.terminals terminal).activeProcess ≠ -1) :
    ∃ pid rest, shells.stack terminal = pid :: rest ∧
      (machine.console.terminals terminal).activeProcess = pid := by
  have head := represents.heads terminal
  cases shape : shells.stack terminal with
  | nil =>
      rw [shape] at head
      exact absurd head some
  | cons pid rest =>
      rw [shape] at head
      exact ⟨pid, rest, rfl, head⟩

/-- Two terminals with the same top are the same terminal. -/
theorem top_unique {first second : Fin 3} {pid : Nat} {rest tail : List Nat}
    (top : shells.stack first = pid :: rest) (also : shells.stack second = pid :: tail) :
    first = second :=
  shells.disjoint first second pid (by rw [top]; exact List.mem_cons_self)
    (by rw [also]; exact List.mem_cons_self)

theorem mem_of_top {terminal : Fin 3} {pid : Nat} {rest : List Nat}
    (top : shells.stack terminal = pid :: rest) : pid ∈ shells :=
  ⟨terminal, by rw [top]; exact List.mem_cons_self⟩

/-- The family stays the same when the active processes, the lineages, and the slots do. -/
theorem Represents.congr (represents : Represents machine shells)
    (heads : ∀ terminal, (after.console.terminals terminal).activeProcess =
      (machine.console.terminals terminal).activeProcess)
    (lineage : ∀ pid ∈ shells, (after.process pid).lineage = (machine.process pid).lineage)
    (active : after.active = machine.active) : Represents after shells where
  heads terminal := (heads terminal).trans (represents.heads terminal)
  links terminal := (represents.links terminal).congr fun pid member => by
    rw [lineage pid ⟨terminal, member⟩]
  bounded := represents.bounded
  terminal terminal pid member := by
    rw [lineage pid ⟨terminal, member⟩]
    exact represents.terminal terminal pid member
  active slot := by
    rw [active]
    exact represents.active slot

/-- A new process goes on top of one stack and refers to the old top as its parent. -/
theorem Represents.push (represents : Represents machine shells) {slot : Nat} (small : slot < 6)
    (idle : machine.active slot = false) (terminal : Fin 3)
    (head : (after.console.terminals terminal).activeProcess = (slot + 1 : Nat))
    (heads : ∀ other ≠ terminal, (after.console.terminals other).activeProcess =
      (machine.console.terminals other).activeProcess)
    (child : (after.process (slot + 1)).lineage.parentNum = (shells.stack terminal).headD 0)
    (place : (after.process (slot + 1)).lineage.terminalIndex = terminal)
    (lineage : ∀ pid ∈ shells, (after.process pid).lineage = (machine.process pid).lineage)
    (active : after.active = Function.update machine.active slot true) :
    Represents after (shells.push terminal (slot + 1) (represents.fresh idle)) where
  heads other := by
    by_cases same : other = terminal
    · rw [same, Stacks.push_self]
      exact head
    · rw [Stacks.push_of_ne _ same, heads other same]
      exact represents.heads other
  links other := by
    have links := (represents.links other).congr fun pid member =>
      congrArg Lineage.parentNum (lineage pid ⟨other, member⟩)
    by_cases same : other = terminal
    · subst same
      rw [Stacks.push_self]
      refine ⟨rfl, Nat.succ_ne_zero slot, ?_⟩
      rw [← child] at links
      exact links
    · rw [Stacks.push_of_ne _ same]
      exact links
  bounded pid member := by
    rw [Stacks.mem_push] at member
    rcases member with rfl | old
    · omega
    · exact represents.bounded pid old
  terminal other pid member := by
    rw [Stacks.mem_stack_push] at member
    rcases member with ⟨rfl, rfl⟩ | old
    · exact place
    · rw [lineage pid ⟨other, old⟩]
      exact represents.terminal other pid old
  active other := by
    rw [Stacks.mem_push, ← represents.active other, active]
    by_cases same : other = slot
    · subst same
      simp
    · simp [same]

/-- The top of one stack goes away and leaves its parent as the new top. -/
theorem Represents.pop (represents : Represents machine shells) {terminal : Fin 3}
    {pid parent : Nat} {rest : List Nat} (top : shells.stack terminal = pid :: parent :: rest)
    (head : (after.console.terminals terminal).activeProcess = parent)
    (heads : ∀ other ≠ terminal, (after.console.terminals other).activeProcess =
      (machine.console.terminals other).activeProcess)
    (lineage : ∀ pid ∈ shells, (after.process pid).lineage = (machine.process pid).lineage)
    (active : after.active = Function.update machine.active (pid - 1) false) :
    Represents after (shells.pop terminal) where
  heads other := by
    by_cases same : other = terminal
    · rw [same, Stacks.pop_self, top]
      exact head
    · rw [Stacks.pop_of_ne _ same, heads other same]
      exact represents.heads other
  links other := by
    have links := (represents.links other).congr fun pid member =>
      congrArg Lineage.parentNum (lineage pid ⟨other, member⟩)
    by_cases same : other = terminal
    · subst same
      rw [top] at links
      rw [Stacks.pop_self, top]
      exact ⟨rfl, links.2.2.2.1, links.2.2.2.2⟩
    · rw [Stacks.pop_of_ne _ same]
      exact links
  bounded other member := represents.bounded other ((shells.mem_pop top other).1 member).1
  terminal other item member := by
    have old := shells.mem_of_mem_pop member
    rw [lineage item ⟨other, old⟩]
    exact represents.terminal other item old
  active slot := by
    have positive := represents.ne_zero (mem_of_top top)
    rw [shells.mem_pop top, ← represents.active slot, active]
    by_cases same : slot = pid - 1
    · rw [same, Function.update_self]
      simp only [Bool.false_eq_true, false_iff, not_and, not_not]
      omega
    · rw [Function.update_of_ne same]
      have different : slot + 1 ≠ pid := by omega
      simp [different]

/-- A change outside the stacks: it keeps the lineage of every process and the saved context of
every process that does not run. -/
structure Undisturbed (machine after : Machine) (shells : Stacks (Fin 3) Nat) : Prop where
  heads : ∀ terminal, (after.console.terminals terminal).activeProcess =
    (machine.console.terminals terminal).activeProcess
  lineage : ∀ pid ∈ shells, (after.process pid).lineage = (machine.process pid).lineage
  context : ∀ pid ∈ shells, pid ≠ machine.currProcess →
    (after.process pid).context = (machine.process pid).context
  active : after.active = machine.active
  currProcess : after.currProcess = machine.currProcess

theorem Placed.undisturbed (placed : Placed machine shells)
    (same : Undisturbed machine after shells) : Placed after shells where
  toRepresents := placed.toRepresents.congr same.heads same.lineage same.active
  parents pid member := by
    rw [same.lineage pid member]
    exact placed.parents pid member
  saved terminal pid rest top other := by
    rw [same.currProcess] at other
    rw [same.context pid (mem_of_top top) other]
    exact placed.saved terminal pid rest top other

theorem Running.undisturbed (running : Running machine shells)
    (same : Undisturbed machine after shells) (esp0 : after.cpu.esp0 = machine.cpu.esp0)
    (owner : after.cpu.userMode = false →
      getCurrentProcessPCB after.cpu.esp = getProcessPCB machine.currProcess ∧
        getCurrentProcessPCB after.cpu.ebp = getProcessPCB machine.currProcess) :
    Running after shells where
  toPlaced := running.toPlaced.undisturbed same
  current := by
    rw [same.currProcess]
    exact running.current
  esp0 := by
    rw [esp0, same.currProcess]
    exact running.esp0
  owner mode := by
    rw [same.currProcess]
    exact owner mode

theorem Running.mem_currProcess (running : Running machine shells) :
    machine.currProcess ∈ shells := by
  obtain ⟨terminal, rest, top⟩ := running.current
  exact mem_of_top top

theorem Running.currProcess_ne_zero (running : Running machine shells) :
    machine.currProcess ≠ 0 := running.ne_zero running.mem_currProcess

/-- The next kernel frame of the running process lies in its own block. -/
theorem Running.stackOwner (running : Running machine shells) :
    getCurrentProcessPCB machine.stackOwner = getProcessPCB machine.currProcess := by
  unfold Machine.stackOwner
  cases mode : machine.cpu.userMode with
  | true =>
      rw [if_pos rfl, running.esp0]
      exact getCurrentProcessPCB_bottom (running.bounded _ running.mem_currProcess)
  | false => exact (running.owner mode).1

theorem Running.currentPcb (running : Running machine shells)
    (kernel : machine.cpu.userMode = false) :
    machine.currentPcb = machine.process machine.currProcess := by
  unfold Machine.currentPcb Machine.process
  rw [(running.owner kernel).1]

/-- In kernel mode the current block names the terminal whose stack the process tops. -/
theorem Running.top (running : Running machine shells) (kernel : machine.cpu.userMode = false) :
    ∃ rest, shells.stack machine.currentPcb.terminalIndex = machine.currProcess :: rest := by
  obtain ⟨terminal, rest, top⟩ := running.current
  have member : machine.currProcess ∈ shells.stack terminal := by
    rw [top]
    exact List.mem_cons_self
  have index := running.terminal terminal machine.currProcess member
  rw [running.currentPcb kernel]
  exact ⟨rest, by rw [← top, ← index]; rfl⟩

/-- A process that halts and is no root shell has its parent below it. -/
theorem Running.parent (running : Running machine shells) (kernel : machine.cpu.userMode = false)
    (child : machine.currentPcb.parentNum ≠ 0) :
    ∃ rest, shells.stack machine.currentPcb.terminalIndex =
      machine.currProcess :: machine.currentPcb.parentNum :: rest := by
  obtain ⟨rest, top⟩ := running.top kernel
  have linked := running.links machine.currentPcb.terminalIndex
  rw [top] at linked
  have parent : (machine.process machine.currProcess).lineage.parentNum =
      machine.currentPcb.parentNum := by
    rw [running.currentPcb kernel]
    rfl
  have below : Links _ 0 (machine.process machine.currProcess).lineage.parentNum rest :=
    linked.2.2
  rw [parent] at below
  cases rest with
  | nil => exact absurd below child
  | cons next rest => exact ⟨rest, by rw [top, below.1]⟩

end

end ComputerSystems.Kernel
