import ComputerSystems.Construction.Grep.DoOneFile
import ComputerSystems.Construction.Kernel.Syscalls
import ComputerSystems.Library.Program

namespace ComputerSystems.User

open Grep (ascii newline)
open Kernel (CallState Console CString FileSystem Stop)
open Library

/-- A call that stops the process, an access outside a local array, or a loop that never ends. -/
inductive Fault where
  | stop (stop : Stop)
  | outOfBounds
  | endless

/-- The part of the machine that the calls of a process use, the number of its calls so far, and
what it has written to the terminal. -/
structure Process where
  state : CallState
  calls : Nat
  printed : List UInt8

/-- The mounted image, and what interrupts and other processes do to the console before each call
and up to the two points inside a read of the keyboard. -/
structure Setting where
  fs : FileSystem
  before : Nat → Console → Console
  tested : Nat → Console → Console
  entered : Nat → Console → Console

/-- A local array, at first whatever the stack held. -/
abbrev Buffer : Type := Nat → UInt8

/-- The next call meets the console that the interrupts have left. -/
def Setting.meet (setting : Setting) (process : Process) : Process :=
  { process with
    state := { process.state with console := setting.before process.calls process.state.console }
    calls := process.calls + 1 }

/-- A string in a local array ends inside the array. -/
def loadString (size : Nat) (buf : Buffer) : Program Process Fault CString :=
  let bytes := (List.range size).map buf
  if 0 ∈ bytes then pure (.ofMemory bytes) else throw .outOfBounds

def store (size : Nat) (buf : Buffer) (index : Int) (byte : UInt8) :
    Program Process Fault Buffer :=
  if 0 ≤ index ∧ index < size then pure (Function.update buf index.toNat byte)
  else throw .outOfBounds

section
variable (setting : Setting)

def ece391Open (filename : CString) : Program Process Fault Int := fun process =>
  let met := setting.meet process
  let opened := Kernel.sysOpen setting.fs (some filename) met.state.pcb.fileArray
  .ok (opened.1, { met with
    state := { met.state with pcb := { met.state.pcb with fileArray := opened.2 } } })

def ece391Close (fd : Int) : Program Process Fault Int := fun process =>
  let met := setting.meet process
  match Kernel.sysClose fd met.state.pcb.fileArray with
  | .error stop => .error (.stop stop)
  | .ok closed => .ok (closed.1, { met with
      state := { met.state with pcb := { met.state.pcb with fileArray := closed.2 } } })

def ece391Read (fd : Int) (buf : Buffer) (nbytes : Int) :
    Program Process Fault (Int × Buffer) := fun process =>
  let met := setting.meet process
  match Kernel.sysRead setting.fs fd (some buf) nbytes
      (setting.tested process.calls met.state.console)
      (setting.entered process.calls met.state.console) met.state with
  | .error stop => .error (.stop stop)
  | .ok read => .ok ((read.1, read.2.1.getD buf), { met with state := read.2.2 })

/-- What is written to descriptor one goes to the terminal. -/
def ece391Write (fd : Int) (buf : Buffer) (nbytes : Int) : Program Process Fault Int :=
  fun process =>
    let met := setting.meet process
    match Kernel.sysWrite fd (some buf) nbytes met.state with
    | .error stop => .error (.stop stop)
    | .ok written => .ok (written.1, { met with
        state := written.2
        printed := met.printed ++
          if fd = 1 then (List.range written.1.toNat).map buf else [] })

/-- `getargs` with an array in the page of the caller. -/
def ece391Getargs (buf : Buffer) (nbytes : Int) : Program Process Fault (Int × Buffer) :=
  fun process =>
    let met := setting.meet process
    let pcb := met.state.pcb
    if pcb.numCharInArg = 1 ∨ nbytes < pcb.numCharInArg then .ok ((-1, buf), met)
    else .ok ((0, forLoop (fun position current =>
      Function.update current position (pcb.arg position)) 0 pcb.numCharInArg buf), met)

/-- `ece391_fdputs` of a string constant. -/
def fdputs (fd : Int) (s : String) : Program Process Fault Unit := do
  let _ ← ece391Write setting fd (fun place => (ascii s).getD place 0) (ascii s).length

/-- The loop of `cat` over the reads of its file. -/
def catRound (fd : Int) (buf : Buffer) : Program Process Fault (Int ⊕ Buffer) := do
  let (cnt, buf) ← ece391Read setting fd buf 1024
  if cnt = 0 then return .inl 0
  if cnt = -1 then
    fdputs setting 1 "file read failed\n"
    return .inl 3
  let written ← ece391Write setting 1 buf cnt
  if written = -1 then return .inl 3
  return .inr buf

/-- `main` of `ece391cat.c`. -/
def cat (fuel : Nat) (buf : Buffer) : Program Process Fault Int := do
  let (status, buf) ← ece391Getargs setting buf 1024
  if status ≠ 0 then
    fdputs setting 1 "could not read arguments\n"
    return 3
  let fd ← ece391Open setting (← loadString 1024 buf)
  if fd = -1 then
    fdputs setting 1 "file not found\n"
    return 2
  loop .endless (catRound setting fd) fuel buf

def sBufSize : Nat := 33

/-- The loop of `ls` over the entries. -/
def lsRound (fd : Int) (buf : Buffer) : Program Process Fault (Int ⊕ Buffer) := do
  let (cnt, buf) ← ece391Read setting fd buf (sBufSize - 1)
  if cnt = 0 then return .inl 0
  if cnt = -1 then
    fdputs setting 1 "directory entry read failed\n"
    return .inl 3
  let buf ← store sBufSize buf cnt newline
  let written ← ece391Write setting 1 buf (cnt + 1)
  if written = -1 then return .inl 3
  return .inr buf

def dot : CString := ⟨ascii ".", by decide⟩

/-- `main` of `ece391ls.c`. -/
def ls (fuel : Nat) (buf : Buffer) : Program Process Fault Int := do
  let fd ← ece391Open setting dot
  if fd = -1 then
    fdputs setting 1 "directory open failed\n"
    return 2
  loop .endless (lsRound setting fd) fuel buf

end

end ComputerSystems.User
