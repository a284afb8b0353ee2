import ComputerSystems.Construction.Kernel.Vfs

namespace ComputerSystems.Grep

open Kernel (CString int8)

/-- An access outside the array, or a loop that never ends. -/
inductive Fault where
  | outOfBounds
  | endless

/-- `BUFSIZE`, one less than the number of bytes of the array. -/
def bufSize : Nat := 1024

def newline : UInt8 := 10

def ascii (text : String) : List UInt8 := text.toList.map fun char => UInt8.ofNat char.toNat

/-- The bytes of the local array `data`, at first whatever the stack held. -/
abbrev Data : Type := Nat → UInt8

def load (data : Data) (index : Nat) : Except Fault UInt8 :=
  if index < bufSize + 1 then .ok (data index) else .error .outOfBounds

def store (data : Data) (index : Nat) (byte : UInt8) : Except Fault Data :=
  if index < bufSize + 1 then .ok (Function.update data index byte) else .error .outOfBounds

/-- A loop that passes over the array goes round at most this often. -/
def arrayFuel : Nat := bufSize + 2

/-- The loop of `ece391_strlen`. -/
def strlen (data : Data) : Nat → Nat → Except Fault Nat
  | 0, _ => .error .endless
  | fuel + 1, s => do
      let byte ← load data s
      if byte = 0 then return 0
      return (← strlen data fuel (s + 1)) + 1

/-- The bytes that `ece391_write` takes from the array. -/
def loadBytes (data : Data) (start : Nat) : Nat → Except Fault (List UInt8)
  | 0 => .ok []
  | count + 1 => do
      let byte ← load data start
      return byte :: (← loadBytes data (start + 1) count)

/-- `ece391_fdputs` of the string in the array. -/
def fdputs (data : Data) (s : Nat) : Except Fault (List UInt8) := do
  loadBytes data s (← strlen data arrayFuel s)

/-- The loop of `ece391_strcpy` inside the array. -/
def strcpy : Nat → Nat → Nat → Data → Except Fault Data
  | 0, _, _, _ => .error .endless
  | fuel + 1, dst, src, data => do
      let byte ← load data src
      let data ← store data dst byte
      if byte = 0 then return data
      strcpy fuel (dst + 1) (src + 1) data

/-- The loop of `ece391_strncmp` with the first string in the array. -/
def strncmp (data : Data) (s2 : CString) : Nat → Nat → Nat → Except Fault Int
  | _, _, 0 => .ok 0
  | first, second, n + 1 => do
      let byte ← load data first
      if byte = s2.get second then
        if byte = 0 ∨ n = 0 then return 0
        strncmp data s2 (first + 1) (second + 1) n
      else return byte.toNat - (s2.get second).toNat

/-- The bytes that `ece391_read` stores into the array. -/
def storeBytes (start : Nat) : List UInt8 → Data → Except Fault Data
  | [], data => .ok data
  | byte :: bytes, data => do
      let data ← store data start byte
      storeBytes (start + 1) bytes data

/-- The system calls on the file. A read gives its bytes, or nothing for minus one. -/
structure Calls (Position : Type) where
  opened : Int
  start : Position
  read : Position → Nat → Option (List UInt8) × Position
  closed : Int

/-- The variables that last from one read to the next, and what was printed. -/
structure Progress where
  data : Data
  last : Nat
  printed : List UInt8

/-- The loop that looks for the end of a line. -/
def findEnd (data : Data) (last : Nat) : Nat → Nat → Except Fault Nat
  | 0, _ => .error .endless
  | fuel + 1, lineEnd => do
      if last ≤ lineEnd then return lineEnd
      let byte ← load data lineEnd
      if byte = newline then return lineEnd
      findEnd data last fuel (lineEnd + 1)

/-- The loop that looks for the string in a line. The bytes of the string are signed where they are
compared with the array, and those of the array are not. -/
def findMatch (s : CString) (data : Data) (lineEnd : Nat) : Nat → Nat → Except Fault Bool
  | 0, _ => .error .endless
  | fuel + 1, check => do
      if lineEnd ≤ check then return false
      let byte ← load data check
      if int8 (s.get 0) = byte.toNat then
        if (← strncmp data s check 0 s.bytes.length) = 0 then return true
      findMatch s data lineEnd fuel (check + 1)

/-- The four strings that a line with a match prints. -/
def printMatch (fname : CString) (data : Data) (lineStart : Nat) :
    Except Fault (List UInt8) := do
  return fname.bytes ++ ascii ":" ++ (← fdputs data lineStart) ++ ascii "\n"

/-- The loop over the lines in the array. -/
def scanLines (s fname : CString) (cnt : Nat) : Nat → Nat → Progress → Except Fault Progress
  | 0, _, _ => .error .endless
  | fuel + 1, lineStart, progress => do
      let lineEnd ← findEnd progress.data progress.last arrayFuel lineStart
      let byte ← load progress.data lineEnd
      if byte ≠ newline ∧ cnt ≠ 0 ∧ lineStart ≠ 0 then
        let data ← store progress.data lineEnd 0
        let data ← strcpy arrayFuel 0 lineStart data
        return ⟨data, progress.last - lineStart, progress.printed⟩
      let data ← store progress.data lineEnd 0
      let found ← findMatch s data lineEnd arrayFuel lineStart
      let line ← if found then printMatch fname data lineStart else pure []
      let printed := progress.printed ++ line
      if progress.last ≤ lineEnd + 1 then return ⟨data, 0, printed⟩
      scanLines s fname cnt fuel (lineEnd + 1) ⟨data, progress.last, printed⟩

/-- The close at the end of `do_one_file`. -/
def finish {Position : Type} (calls : Calls Position) (printed : List UInt8) :
    Int × List UInt8 :=
  if calls.closed = -1 then (-1, printed ++ ascii "file close failed\n") else (0, printed)

/-- The loop over the reads. -/
def readLoop {Position : Type} (calls : Calls Position) (s fname : CString) :
    Nat → Position → Progress → Except Fault (Int × List UInt8)
  | 0, _, _ => .error .endless
  | fuel + 1, position, progress =>
      match calls.read position (bufSize - progress.last) with
      | (none, _) => .ok (-1, progress.printed ++ ascii "file read failed\n")
      | (some bytes, position) => do
          let data ← storeBytes progress.last bytes progress.data
          let scanned ← scanLines s fname bytes.length arrayFuel 0
            ⟨data, progress.last + bytes.length, progress.printed⟩
          if bytes.length = 0 then return finish calls scanned.printed
          readLoop calls s fname fuel position scanned

/-- The returned value and what was printed. The fuel bounds the number of reads. -/
def doOneFile {Position : Type} (calls : Calls Position) (s fname : CString) (data : Data)
    (fuel : Nat) : Except Fault (Int × List UInt8) :=
  if calls.opened = -1 then .ok (-1, ascii "file open failed\n")
  else readLoop calls s fname fuel calls.start ⟨data, 0, []⟩

end ComputerSystems.Grep
