import ComputerSystems.Construction.Kernel.Process

namespace ComputerSystems.Kernel
open ComputerSystems.Library

namespace Machine

/-- The first part of `schedule` stores the registers in the current block. -/
def saveContext (machine : Machine) : Machine :=
  machine.updatePcb (getCurrentProcessPCB machine.cpu.esp) fun pcb =>
    { pcb with
      currentEbp := machine.cpu.ebp
      currentEsp := machine.cpu.esp
      currentEip := .eipReturn
      isUserMode := false }

/-- The iterator moves at least once and stops at a terminal with a process. -/
def nextTerminal (machine : Machine) : Fin 3 :=
  whileLoop (fun index => (machine.console.terminals index).activeProcess == -1) (· + 1) 3
    (machine.terminalIter + 1)

end Machine

/-- The second part of `schedule` switches to one process. A return to kernel code does not pop
the stack pointer, so the epilogue takes it from the base pointer. -/
def dispatch (index : Fin 3) (pid : Nat) (machine : Machine) : Machine :=
  let nextPcb := machine.pcb (getProcessPCB pid)
  let prepared := { machine with
    terminalIter := index
    currProcess := pid
    cpu := { machine.cpu with cr3 := pid - 1, esp0 := getKernelStackBottom pid } }
  if nextPcb.isUserMode then prepared.contextSwitch
  else
    { prepared with
      cpu := { prepared.cpu with
        esp := nextPcb.currentEbp
        ebp := nextPcb.currentEbp
        interruptFlag := true } }

/-- Without a process on any terminal the search does not end. -/
def schedule (machine : Machine) : Except Stop Machine :=
  let saved := machine.saveContext
  let index := saved.nextTerminal
  let pid := (saved.console.terminals index).activeProcess
  if pid = -1 then .error .waiting else .ok (dispatch index pid.toNat saved)

/-- A page copy with `memcpy` between two separate pages. -/
def copyPage (target source : Nat) (video : Nat → UInt8) : Nat → UInt8 := fun address =>
  if target ≤ address ∧ address < target + kb4 then video (source + (address - target))
  else video address

/-- The two screens trade their places, and the cursor follows. -/
def showTerminal (next : Fin 3) (console : Console) : Console :=
  let old := console.terminals console.activeTerminalIndex
  let new := console.terminals next
  let copied := { console with
    video := copyPage videoBase new.storageLocation
      (copyPage old.storageLocation old.videoStart console.video) }
  let moved := copied.moveCursor new.posX new.posY
  let hidden := moved.setTerminal console.activeTerminalIndex
    { old with videoStart := old.storageLocation }
  hidden.setTerminal next { hidden.terminals next with videoStart := videoBase }

/-- A present page follows its screen, and the comparison is between frames. -/
def remapEntry (hidden shown entry : Nat) : Nat :=
  if entry &&& 0x07 = 7 then
    if entry &&& 0xFFFFF000 = videoBase then entry &&& 0x00000FFF ||| hidden
    else if entry &&& 0xFFFFF000 = shown then entry &&& 0x00000FFF ||| videoBase
    else entry
  else entry

/-- The remap loop visits the first entry of every slot. -/
def remapPages (hidden shown : Nat) (tables : Nat → Nat → Nat) : Nat → Nat → Nat :=
  fun slot index =>
    if slot < numMaxProcesses ∧ index = 0 then remapEntry hidden shown (tables slot 0)
    else tables slot index

/-- The part of `switch_terminal` that both of its branches share. -/
def switchScreens (next : Fin 3) (machine : Machine) : Machine :=
  let old := machine.console.terminals machine.console.activeTerminalIndex
  let new := machine.console.terminals next
  { machine with
    console := showTerminal next machine.console
    videoMemPageTable :=
      remapPages old.storageLocation new.storageLocation machine.videoMemPageTable
    cpu := { machine.cpu with cr3 := machine.currProcess - 1 } }

def shellName : CString := ⟨[115, 104, 101, 108, 108], by decide⟩

/-- The block of a new root shell before its program is loaded. -/
def shellBlock (next : Fin 3) (shell : Pcb) : Pcb :=
  { shell with
    arg := Function.update shell.arg 0 0
    numCharInArg := 1
    parentNum := 0
    terminalIndex := next
    parentEsp := 0
    parentEbp := 0
    execRetAddr := .address 0 }

def prepareShell (next : Fin 3) (slot : Nat) (machine : Machine) : Machine :=
  { machine.updatePcb (getProcessPCB (slot + 1)) (shellBlock next) with
    active := Function.update machine.active slot true }

/-- The saved context of a new root shell starts at its entry point in user mode. -/
def seedBlock (entryPoint : Nat) (shell : Pcb) : Pcb :=
  { shell with
    fileArray := initFileArray blank
    currentEip := .address entryPoint
    currentEbp := 0
    currentEsp := mb128 + mb4 - 4
    isUserMode := true }

def seedShell (slot : Nat) (machine : Machine) : Machine :=
  machine.updatePcb (getProcessPCB (slot + 1)) (seedBlock machine.entryPoint)

def setActiveTerminal (next : Fin 3) (machine : Machine) : Machine :=
  { machine with console := { machine.console with activeTerminalIndex := next } }

/-- An empty terminal gets a root shell, and a failed load of its program is ignored. -/
def switchTerminal (fs : FileSystem) (nextTerminalIndex : Nat) (machine : Machine) :
    Except Stop Machine :=
  if inRange : nextTerminalIndex < 3 then
    let next : Fin 3 := ⟨nextTerminalIndex, inRange⟩
    if next = machine.console.activeTerminalIndex then .ok machine
    else if (machine.console.terminals next).activeProcess ≠ -1 then
      .ok (setActiveTerminal next (switchScreens next machine))
    else
      match machine.freeSlot with
      | none => .ok machine.cli
      | some slot =>
          let prepared := prepareShell next slot (switchScreens next machine)
          match loadProgram fs shellName (prepared.loadPageDirectory slot) with
          | .error stop => .error stop
          | .ok (_, loaded) =>
              let seeded := (seedShell slot loaded).loadPageDirectory (machine.currProcess - 1)
              .ok (setActiveTerminal next (seeded.setActiveProcess next (slot + 1)))
  else .ok machine

end ComputerSystems.Kernel
