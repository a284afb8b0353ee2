import ComputerSystems.Construction.Kernel.FileSystem

namespace ComputerSystems.Kernel

abbrev numMaxProcesses : Nat := 6
abbrev numEntries : Nat := 1024
abbrev terminalBufferSize : Nat := 128
abbrev numCols : Nat := 80
abbrev numRows : Nat := 25
abbrev kb4 : Nat := 0x1000
abbrev mb4 : Nat := 0x400000
abbrev mb128 : Nat := 0x8000000
abbrev videoBase : Nat := 0xB8000

/-- The value of the `attribute` byte that the kernel prints with. -/
def attrib : UInt8 := 0x7

/-- The operations pointer of a descriptor is null, one of the four tables, or a stray address. -/
inductive OpsTable where
  | null
  | terminalOps
  | fileOps
  | directoryOps
  | rtcOps
  | other (address : Nat)
  deriving DecidableEq

inductive FileFlags where
  | fileAvail
  | fileOccup
  deriving DecidableEq

/-- One entry of the descriptor table. -/
structure FileT where
  fileOpsTablePtr : OpsTable
  inodeNum : Word
  filePosition : Word
  flags : FileFlags
  deriving DecidableEq

/-- The descriptor table has `NUM_MAX_OPEN_FILES` entries. -/
abbrev FileArray := Fin 8 → FileT

/-- A saved instruction pointer is a plain address or one of the two labels inside the machine. -/
inductive CodeAddress where
  | address (eip : Nat)
  | eipReturn
  | endOfExecute
  deriving DecidableEq

/-- The process control block. -/
structure Pcb where
  fileArray : FileArray
  parentNum : Nat
  parentEsp : Nat
  currentEsp : Nat
  parentEbp : Nat
  currentEbp : Nat
  currentEip : CodeAddress
  execRetAddr : CodeAddress
  rtcCount : Nat
  arg : Nat → UInt8
  numCharInArg : Nat
  terminalIndex : Fin 3
  isUserMode : Bool

/-- One virtual terminal. The byte in front of the buffer belongs to other data. -/
structure Terminal where
  buffer : Nat → UInt8
  beforeBuffer : UInt8
  videoStart : Nat
  storageLocation : Nat
  posX : Nat
  posY : Nat
  charsInBuffer : Nat
  activeProcess : Int

/-- The terminals, the physical video memory and the cursor register of the video card. -/
structure Console where
  terminals : Fin 3 → Terminal
  activeTerminalIndex : Fin 3
  video : Nat → UInt8
  cursor : Option Nat

/-- The state of the modifier keys. -/
structure Keyboard where
  caps : Bool
  leftShift : Bool
  rightShift : Bool
  leftCtrl : Bool
  rightCtrl : Bool
  leftAlt : Bool
  rightAlt : Bool
  capsHeld : Bool

/-- The address part of a page directory entry. -/
inductive PageBase where
  | frame (address : Nat)
  | firstPageTable
  | videoMemPageTable (index : Nat)
  deriving DecidableEq

/-- A page directory entry keeps its twelve attribute bits beside its address part. -/
structure PageDirEntry where
  base : PageBase
  attributes : Nat
  deriving DecidableEq

/-- The registers that the process code sets. `cr3` is the index of the loaded directory,
and the stack registers are those of the kernel stack. -/
structure Cpu where
  cr3 : Int
  esp0 : Nat
  esp : Nat
  ebp : Nat
  userMode : Bool
  interruptFlag : Bool

/-- The state of the machine. The process control blocks are addressed in physical memory,
and `frames` holds the program pages by the address of their 4MB frame. -/
structure Machine where
  console : Console
  keyboard : Keyboard
  active : Nat → Bool
  currProcess : Nat
  terminalIter : Fin 3
  pcb : Nat → Pcb
  pageDirectoryArray : Nat → Nat → PageDirEntry
  firstPageTable : Nat → Nat
  videoMemPageTable : Nat → Nat → Nat
  frames : Nat → Nat → UInt8
  cpu : Cpu

/-- The current block is the one at the bottom of the current kernel stack area. -/
@[irreducible] def getCurrentProcessPCB (esp : Nat) : Nat := esp - esp % 0x2000

@[irreducible] def getProcessPCB (pid : Nat) : Nat := 0x800000 - (pid + 1) * 0x2000

@[irreducible] def getKernelStackBottom (pid : Nat) : Nat := 0x800000 - pid * 0x2000 - 4

namespace Machine

def currentPcb (machine : Machine) : Pcb := machine.pcb (getCurrentProcessPCB machine.cpu.esp)

def updatePcb (machine : Machine) (address : Nat) (change : Pcb → Pcb) : Machine :=
  { machine with pcb := Function.update machine.pcb address (change (machine.pcb address)) }

def cli (machine : Machine) : Machine :=
  { machine with cpu := { machine.cpu with interruptFlag := false } }

/-- The argument is the index into `page_directory_array`, which is minus one for process zero. -/
def loadPageDirectory (machine : Machine) (index : Int) : Machine :=
  { machine with cpu := { machine.cpu with cr3 := index } }

end Machine

end ComputerSystems.Kernel
