import ComputerSystems.Construction.Fish.Blink
import ComputerSystems.Construction.User.Programs

namespace ComputerSystems.Fish

open Grep (ascii newline)
open Library
open User (Buffer Process Setting ece391Close ece391Open ece391Read ece391Write)

/-- The program halts, its calls go wrong, or its blink engine does. -/
inductive Failure where
  | halted (status : Int)
  | program (fault : User.Fault)
  | engine (fault : Mp1.Fault)

/-- The process with its blink engine, and the video memory at each wait for the clock. -/
structure Studio where
  process : Process
  system : System
  frames : List (Nat → UInt8)

def call {Value : Type} (program : Program Process User.Fault Value) :
    Program Studio Failure Value := fun studio =>
  match program studio.process with
  | .error fault => .error (.program fault)
  | .ok called => .ok (called.1, { studio with process := called.2 })

/-- A call of the engine. The program looks at no result of one. -/
def request (asked : Request) : Program Studio Failure Unit := fun studio =>
  match serve studio.system asked with
  | .error fault => .error (.engine fault)
  | .ok system => .ok ((), { studio with system := system })

def space : UInt8 := 32

/-- The local variables of `add_frames` that its loops change. -/
structure Locals where
  row : Nat
  col : Nat
  eof0 : Bool
  eof1 : Bool
  c0 : UInt8
  c1 : UInt8

section
variable (setting : Setting)

/-- A character of one file, which stays at the end of its line. -/
def readChar (fd : Int) (c : UInt8) (eof : Bool) : Program Studio Failure (UInt8 × Bool) := do
  if c = newline then return (c, eof)
  let (numBytes, buf) ← call (ece391Read setting fd (fun _ => c) 1)
  if numBytes = 0 then return (newline, true)
  return (buf 0, eof)

/-- The structure that is added for two characters. Its other fields come from the stack. -/
def blinkStruct (stack : Mp1.BlinkStruct) (row col : Nat) (c0 c1 : UInt8) : Mp1.BlinkStruct :=
  { stack with
    onLength := 15
    offLength := 15
    onChar := if c0 = newline then space else c0
    offChar := if c1 = newline then space else c1
    location := .ofNat (row * 80 + col + 40) }

/-- One round of the inner loop of `add_frames`. -/
def colRound (stack : Mp1.BlinkStruct) (fd0 fd1 : Int) (locals : Locals) :
    Program Studio Failure (Locals ⊕ Locals) := do
  let (c0, eof0) ← readChar setting fd0 locals.c0 locals.eof0
  let (c1, eof1) ← readChar setting fd1 locals.c1 locals.eof1
  let read := { locals with c0 := c0, eof0 := eof0, c1 := c1, eof1 := eof1 }
  if c0 = newline ∧ c1 = newline then return .inl read
  if (c0 ≠ space ∧ c0 ≠ newline) ∨ (c1 ≠ space ∧ c1 ≠ newline) then
    request (.add (blinkStruct stack locals.row locals.col c0 c1))
  return .inr { read with col := locals.col + 1 }

/-- A file that has ended is closed, each time again, and reads as an empty line. -/
def nextLine (fd : Int) (eof : Bool) : Program Studio Failure UInt8 := do
  if eof then
    let _ ← call (ece391Close setting fd)
    return newline
  return 48

/-- One round of the outer loop of `add_frames`. -/
def rowRound (fuel : Nat) (stack : Mp1.BlinkStruct) (fd0 fd1 : Int) (locals : Locals) :
    Program Studio Failure (Unit ⊕ Locals) := do
  if locals.eof0 ∧ locals.eof1 then return .inl ()
  let read ← loop (.program .endless) (colRound setting stack fd0 fd1) fuel { locals with col := 0 }
  let c0 ← nextLine setting fd0 read.eof0
  let c1 ← nextLine setting fd1 read.eof1
  return .inr { read with c0 := c0, c1 := c1, row := locals.row + 1 }

def addFrames (fuel : Nat) (stack : Mp1.BlinkStruct) (f0 f1 : Kernel.CString) :
    Program Studio Failure Unit := do
  let fd0 ← call (ece391Open setting f0)
  if fd0 < 0 then throw (.halted (-1))
  let fd1 ← call (ece391Open setting f1)
  if fd1 < 0 then throw (.halted (-1))
  loop (.program .endless) (rowRound setting fuel stack fd0 fd1) fuel ⟨0, 0, false, false, 48, 48⟩

/-- A number of rounds that wait for the clock and call the tasklet. What the screen shows during
each wait is kept. -/
def waits (rtcFd : Int) (garbage : Buffer) : Nat → Program Studio Failure Buffer
  | 0 => return garbage
  | rounds + 1 => do
      modify fun studio =>
        { studio with frames := studio.frames ++ [studio.system.engine.video] }
      let (_, garbage) ← call (ece391Read setting rtcFd garbage 4)
      request .tasklet
      waits rtcFd garbage rounds

def file0 : Kernel.CString := ⟨ascii "frame0.txt", by decide⟩

def file1 : Kernel.CString := ⟨ascii "frame1.txt", by decide⟩

def rtc : Kernel.CString := ⟨ascii "rtc", by decide⟩

/-- `ret_val` as the bytes of an integer. -/
def retVal : Buffer := fun place => if place = 0 then 32 else 0

/-- `main` from the open of the clock on. The array of structures is cleared before. -/
def main (fuel : Nat) (stack addStack : Mp1.BlinkStruct) (garbage : Buffer) :
    Program Studio Failure Int := do
  let rtcFd ← call (ece391Open setting rtc)
  addFrames setting fuel addStack file0 file1
  let _ ← call (ece391Write setting rtcFd retVal 4)
  let garbage ← waits setting rtcFd garbage 100
  request (.add { stack with
    onChar := 73, offChar := 77, onLength := 7, offLength := 6, location := 6 * 80 + 60 })
  let garbage ← waits setting rtcFd garbage 100
  request (.sync (BitVec.ofNat 32 (40 * 2 ^ 16 + (6 * 80 + 60))))
  let garbage ← waits setting rtcFd garbage 100
  request (.remove (BitVec.ofNat 32 (6 * 80 + 60)))
  let _ ← waits setting rtcFd garbage 100
  let _ ← call (ece391Close setting rtcFd)
  return 0

end

/-- The process of a program that has just started, with a cleared array of structures. -/
def Studio.begin (process : Process) (video : Nat → UInt8) : Studio :=
  ⟨process, start (fun _ => zeroed) video, []⟩

end ComputerSystems.Fish
