import ComputerSystems.Construction.Kernel.Terminal
import ComputerSystems.Construction.Kernel.Vfs

namespace ComputerSystems.Kernel

/-- A call that does not return jumps through a pointer to no table, divides by zero, faults on
a page, or still waits. The machine is blocked on an event that it cannot take. -/
inductive Stop where
  | wildCall
  | divideError
  | pageFault
  | waiting
  | blocked
  deriving DecidableEq

/-- The part of the machine that the file calls of one process use. -/
structure CallState where
  pcb : Pcb
  console : Console

/-- The descriptor as an index of the table. -/
def fdIndex (fd : Int) : Option (Fin 8) :=
  if inRange : 0 ≤ fd ∧ fd < 8 then some ⟨fd.toNat, by omega⟩ else none

def sysOpen (fs : FileSystem) (filename : Option CString) (fileArray : FileArray) :
    Int × FileArray :=
  match fs.readDentryByName filename with
  | none => (-1, fileArray)
  | some dentry =>
      if dentry.filetype = 0 then
        let created := fileOpen fs filename fileArray
        if created.1 = -1 then (-1, created.2) else fileOpen fs filename created.2
      else if dentry.filetype = 1 then directoryOpen fs filename fileArray
      else if dentry.filetype = 2 then fileOpen fs filename fileArray
      else (-1, fileArray)

/-- The call goes through the close pointer of the entry's table. -/
def sysClose (fd : Int) (fileArray : FileArray) : Except Stop (Int × FileArray) :=
  if fd < 2 then .ok (-1, fileArray)
  else
    match fdIndex fd with
    | none => .ok (-1, fileArray)
    | some index =>
        if (fileArray index).flags = .fileAvail then .ok (-1, fileArray)
        else
          match (fileArray index).fileOpsTablePtr with
          | .terminalOps => .ok (-1, fileArray)
          | .fileOps => .ok (fileClose index fileArray)
          | .directoryOps => .ok (directoryClose index fileArray)
          | .rtcOps => .ok (rtcClose index fileArray)
          | .null => .error .wildCall
          | .other _ => .error .wildCall

/-- The drivers for files and directories do not check their buffer for null. -/
def sysRead (fs : FileSystem) (fd : Int) (buf : Option (Nat → UInt8)) (nbytes : Int)
    (tested entered : Console) (state : CallState) :
    Except Stop (Int × Option (Nat → UInt8) × CallState) :=
  match fdIndex fd with
  | none => .ok (-1, buf, state)
  | some index =>
      let fileArray := state.pcb.fileArray
      if (fileArray index).flags = .fileAvail then .ok (-1, buf, state)
      else
        match (fileArray index).fileOpsTablePtr with
        | .terminalOps =>
            match terminalRead index buf nbytes state.pcb.terminalIndex state.console tested
                entered with
            | none => .error .waiting
            | some read => .ok (read.1, read.2.1, { state with console := read.2.2 })
        | .fileOps =>
            let count := BitVec.ofInt 32 nbytes
            if buf.isNone ∧ fileStores fs index count fileArray then .error .pageFault
            else
              match fileRead fs index (buf.getD fun _ => 0) count fileArray with
              | none => .error .waiting
              | some read =>
                  .ok (read.1, buf.map fun _ => read.2.1,
                    { state with pcb := { state.pcb with fileArray := read.2.2 } })
        | .directoryOps =>
            if buf.isNone ∧ directoryStores fs index fileArray then .error .pageFault
            else
              let read := directoryRead fs index (buf.getD fun _ => 0) fileArray
              .ok (read.1, buf.map fun _ => read.2.1,
                { state with pcb := { state.pcb with fileArray := read.2.2 } })
        | .rtcOps =>
            match rtcRead index state.pcb with
            | none => .error .divideError
            | some read => .ok (read.1, buf, { state with pcb := read.2 })
        | .null => .error .wildCall
        | .other _ => .error .wildCall

def sysWrite (fd : Int) (buf : Option (Nat → UInt8)) (nbytes : Int) (state : CallState) :
    Except Stop (Int × CallState) :=
  match fdIndex fd with
  | none => .ok (-1, state)
  | some index =>
      let fileArray := state.pcb.fileArray
      if (fileArray index).flags = .fileAvail then .ok (-1, state)
      else
        match (fileArray index).fileOpsTablePtr with
        | .terminalOps =>
            let written := terminalWrite index buf nbytes state.pcb.terminalIndex state.console
            .ok (written.1, { state with console := written.2 })
        | .fileOps => .ok (fileWrite, state)
        | .directoryOps => .ok (directoryWrite, state)
        | .rtcOps =>
            let written := rtcWrite index buf nbytes fileArray
            .ok (written.1, { state with pcb := { state.pcb with fileArray := written.2 } })
        | .null => .error .wildCall
        | .other _ => .error .wildCall

/-- The file calls of one process. Interrupts change the console before a call and during a
read, so a call brings the consoles that it meets. -/
inductive FileCall where
  | sysOpen (filename : Option CString)
  | sysClose (fd : Int)
  | sysRead (fd : Int) (buf : Option (Nat → UInt8)) (nbytes : Int)
      (called tested entered : Console)
  | sysWrite (fd : Int) (buf : Option (Nat → UInt8)) (nbytes : Int) (called : Console)

/-- One file call as it changes the state of its process. -/
def fileCall (fs : FileSystem) (state : CallState) : FileCall → Except Stop CallState
  | .sysOpen filename =>
      .ok { state with
        pcb := { state.pcb with fileArray := (sysOpen fs filename state.pcb.fileArray).2 } }
  | .sysClose fd =>
      (sysClose fd state.pcb.fileArray).map fun closed =>
        { state with pcb := { state.pcb with fileArray := closed.2 } }
  | .sysRead fd buf nbytes called tested entered =>
      (sysRead fs fd buf nbytes tested entered { state with console := called }).map fun read =>
        read.2.2
  | .sysWrite fd buf nbytes called =>
      (sysWrite fd buf nbytes { state with console := called }).map fun written => written.2

/-- A process starts with the standard entries. -/
def freshProcess (pcb : Pcb) (console : Console) : CallState :=
  ⟨{ pcb with fileArray := initFileArray blank }, console⟩

end ComputerSystems.Kernel
