import ComputerSystems.Construction.Kernel.Syscalls

namespace ComputerSystems.Kernel
open ComputerSystems.Library

/-- Every directory maps the kernel page, the video pages, and the program page of its slot. -/
def initPaging (machine : Machine) : Machine :=
  { machine with
    pageDirectoryArray := fun slot index =>
      if numMaxProcesses ≤ slot then machine.pageDirectoryArray slot index
      else if index = 0 then ⟨.firstPageTable, 3⟩
      else if index = 1 then ⟨.frame 0x400000, 0x083⟩
      else if index = 32 then ⟨.frame (0x800000 + slot * 0x400000), 0x087⟩
      else if index < numEntries then ⟨.frame 0, 0x002⟩
      else machine.pageDirectoryArray slot index
    firstPageTable := fun index =>
      if numEntries ≤ index then machine.firstPageTable index
      else if 184 ≤ index ∧ index ≤ 187 then index * 0x1000 ||| 3
      else index * 0x1000 ||| 2
    cpu := { machine.cpu with cr3 := 0 } }

/-- A kernel call returns a status, or it leaves for user code or for a label in the kernel. -/
inductive Transfer where
  | returned (status : Int)
  | toUser (eip esp ebp : Nat)
  | toKernel (eip : CodeAddress)
  deriving DecidableEq

structure Outcome where
  machine : Machine
  transfer : Transfer

/-- The offset of a program image in its page. -/
abbrev programOffset : Nat := 0x48000

/-- Whether a load fills a position at or beyond the limit. -/
def Load.reaches (limit : Nat) : Load → Bool
  | .data position _ => limit ≤ position
  | _ => false

namespace Machine

/-- The frame of the program page in the loaded directory. -/
def programFrame (machine : Machine) : Nat :=
  match (machine.pageDirectoryArray machine.cpu.cr3.toNat 32).base with
  | .frame address => address
  | _ => 0

/-- The bytes from the start of the program image on. -/
def programImage (machine : Machine) (position : Nat) : UInt8 :=
  machine.frames machine.programFrame (programOffset + position)

/-- The entry point is the field at byte 24 of the program image. -/
def entryPoint (machine : Machine) : Nat :=
  (machine.programImage 24).toNat + 2 ^ 8 * (machine.programImage 25).toNat +
    2 ^ 16 * (machine.programImage 26).toNat + 2 ^ 24 * (machine.programImage 27).toNat

def setActiveProcess (machine : Machine) (index : Fin 3) (pid : Int) : Machine :=
  { machine with
    console := machine.console.setTerminal index
      { machine.console.terminals index with activeProcess := pid } }

/-- The search for a process takes the lowest inactive slot. -/
def freeSlot (machine : Machine) : Option Nat :=
  (List.range numMaxProcesses).find? fun slot => !machine.active slot

/-- An `iret` to user mode turns interrupts on. -/
def contextSwitch (machine : Machine) : Machine :=
  { machine with cpu := { machine.cpu with userMode := true, interruptFlag := true } }

end Machine

/-- The image must fit into the program page. -/
def loadProgram (fs : FileSystem) (filename : CString) (machine : Machine) :
    Except Stop (Int × Machine) :=
  if 33 ≤ filename.bytes.length then .ok (-1, machine)
  else
    match fs.readDentryByName (some filename) with
    | none => .ok (-1, machine)
    | some newDent =>
        if newDent.filetype ≠ 2 then .ok (-1, machine)
        else
          let size := fs.inodeLength newDent.inodeNum
          match readData fs (BitVec.ofNat 32 newDent.inodeNum) 0 machine.programImage
              (BitVec.ofNat 32 size) with
          | none => .error .waiting
          | some outcome =>
              if outcome.loads.any (Load.reaches (mb4 - programOffset)) then .error .pageFault
              else
                let loaded := { machine with
                  frames := Function.update machine.frames machine.programFrame fun address =>
                    if programOffset ≤ address then outcome.buf (address - programOffset)
                    else machine.frames machine.programFrame address }
                if outcome.result % 2 ^ 32 ≠ size then .ok (-1, loaded)
                else if loaded.programImage 0 ≠ 0x7F ∨ loaded.programImage 1 ≠ 0x45 ∨
                    loaded.programImage 2 ≠ 0x4C ∨ loaded.programImage 3 ≠ 0x46 then
                  .ok (-1, loaded)
                else .ok (0, loaded)

/-- The name ends at a space, at the terminator, or after 32 bytes. -/
def takeFilename (command : CString) : Nat → Nat → (Nat → UInt8) → Nat × (Nat → UInt8)
  | 0, index, filename => (index, filename)
  | remaining + 1, index, filename =>
      if command.get index = 32 then (index + 1, Function.update filename index 0)
      else
        let stored := Function.update filename index (command.get index)
        if command.get index = 0 then (index, stored)
        else takeFilename command remaining (index + 1) stored

def skipSpaces (command : CString) (index : Nat) : Nat :=
  whileLoop (fun index => command.get index == 32) (· + 1) command.bytes.length index

/-- The argument ends at a newline or at the terminator, and its length counts that byte. -/
def takeArgument (command : CString) : Nat → Nat → Nat → Pcb → Pcb
  | 0, _, _, pcb => pcb
  | remaining + 1, index, position, pcb =>
      let stored := { pcb with arg := Function.update pcb.arg position (command.get index) }
      if command.get index = 10 then
        { stored with
          arg := Function.update stored.arg position 0
          numCharInArg := position + 1 }
      else if command.get index = 0 then { stored with numCharInArg := position + 1 }
      else takeArgument command remaining (index + 1) (position + 1) stored

/-- The block of a new process refers to the process that executes it. -/
def childBlock (machine : Machine) (child : Pcb) : Pcb :=
  { child with
    fileArray := initFileArray blank
    parentNum := machine.currProcess
    execRetAddr := .endOfExecute
    terminalIndex := machine.currentPcb.terminalIndex
    parentEsp := machine.cpu.esp
    parentEbp := machine.cpu.ebp }

/-- The second part of `execute` makes the process and switches to it. -/
def startProcess (slot : Nat) (machine : Machine) : Outcome :=
  let pid := slot + 1
  let created := machine.updatePcb (getProcessPCB pid) (childBlock machine)
  let started := { created.setActiveProcess machine.currentPcb.terminalIndex pid with
    active := Function.update machine.active slot true
    currProcess := pid
    cpu := { machine.cpu with esp0 := getKernelStackBottom pid } }
  ⟨started.contextSwitch, .toUser machine.entryPoint (mb128 + mb4 - 4) 0⟩

/-- The middle part of `execute` parses the command and loads the program into a free slot. A name
of 32 bytes has no terminator, so `load_program` reads on into the stack. -/
def loadCommand (fs : FileSystem) (command : CString) (stack : List UInt8) (slot : Nat)
    (machine : Machine) : Except Stop (Int × Machine) :=
  let named := takeFilename command filenameLen 0 fun _ => 0
  let filename := CString.ofMemory ((List.range filenameLen).map named.2 ++ stack)
  let first := skipSpaces command named.1
  let parsed := machine.cli.updatePcb (getProcessPCB (slot + 1))
    (takeArgument command (terminalBufferSize - first) first 0)
  loadProgram fs filename (parsed.loadPageDirectory slot)

/-- A failed load leaves the arguments in the block of the free slot. -/
def execute (fs : FileSystem) (command : Option CString) (stack : List UInt8)
    (machine : Machine) : Except Stop Outcome :=
  match machine.freeSlot with
  | none => .ok ⟨machine.cli, .returned (-1)⟩
  | some slot =>
      match command with
      | none => .error .pageFault
      | some command =>
          match loadCommand fs command stack slot machine with
          | .error stop => .error stop
          | .ok (status, loaded) =>
              if status = -1 then
                .ok ⟨loaded.loadPageDirectory (machine.currProcess - 1), .returned (-1)⟩
              else .ok (startProcess slot loaded)

/-- The close loop of `halt` ignores the results of `close`. -/
def closeFiles : List Nat → FileArray → Except Stop FileArray
  | [], fileArray => .ok fileArray
  | fd :: rest, fileArray =>
      match sysClose fd fileArray with
      | .error stop => .error stop
      | .ok (_, closed) => closeFiles rest closed

/-- A root shell starts again, and any other process gives way to its parent. -/
def halt (machine : Machine) : Except Stop Outcome :=
  let current := machine.currentPcb
  match closeFiles [2, 3, 4, 5, 6, 7] current.fileArray with
  | .error stop => .error stop
  | .ok fileArray =>
      let closed := machine.cli.updatePcb (getCurrentProcessPCB machine.cpu.esp) fun pcb =>
        { pcb with fileArray := fileArray }
      if current.parentNum = 0 then
        .ok ⟨closed.contextSwitch, .toUser closed.entryPoint (mb128 + mb4 - 4) 0⟩
      else
        let left := closed.setActiveProcess current.terminalIndex current.parentNum
        .ok ⟨{ left with
          active := Function.update machine.active (machine.currProcess - 1) false
          currProcess := current.parentNum
          cpu := { closed.cpu with
            cr3 := current.parentNum - 1
            esp0 := getKernelStackBottom current.parentNum
            esp := current.parentEsp
            ebp := current.parentEbp } }, .toKernel current.execRetAddr⟩

/-- The bytes of the argument go to the program page of the caller. The check accepts the address
at the end of that page, and a store beyond the page faults. -/
def getargs (buf : Nat) (nbytes : Int) (machine : Machine) : Except Stop Outcome :=
  if buf = 0 ∨ buf > mb128 + mb4 ∨ buf < mb128 then .ok ⟨machine, .returned (-1)⟩
  else
    let currentPcb := machine.currentPcb
    if currentPcb.numCharInArg = 1 then .ok ⟨machine, .returned (-1)⟩
    else if nbytes < currentPcb.numCharInArg then .ok ⟨machine, .returned (-1)⟩
    else if mb128 + mb4 < buf + currentPcb.numCharInArg then .error .pageFault
    else
      let offset := buf - mb128
      .ok ⟨{ machine with
        frames := Function.update machine.frames machine.programFrame <|
          forLoop (fun position page =>
            Function.update page (offset + position) (currentPcb.arg position))
            0 currentPcb.numCharInArg (machine.frames machine.programFrame) }, .returned 0⟩

/-- The caller must point into its own page, and a rejected call leaves interrupts off. -/
def vidmap (screenStart : Nat) (machine : Machine) : Outcome :=
  if screenStart = 0 ∨ screenStart > mb128 + mb4 - 4 ∨ screenStart < mb128 then
    ⟨machine.cli, .returned (-1)⟩
  else
    let slot := machine.currProcess - 1
    let offset := screenStart - mb128
    ⟨{ machine with
      frames := Function.update machine.frames machine.programFrame fun address =>
        if address = offset + 3 then 0x10
        else if offset ≤ address ∧ address < offset + 3 then 0
        else machine.frames machine.programFrame address
      videoMemPageTable := Function.update machine.videoMemPageTable slot fun index =>
        if index = 0 then 184 * kb4 ||| 7
        else if index < numEntries then index * kb4 ||| 6
        else machine.videoMemPageTable slot index
      pageDirectoryArray := Function.update machine.pageDirectoryArray slot
        (Function.update (machine.pageDirectoryArray slot) 64 ⟨.videoMemPageTable slot, 7⟩)
      cpu := { machine.cpu with cr3 := slot } }, .returned 0⟩

end ComputerSystems.Kernel
