import ComputerSystems.Construction.Kernel.State

namespace ComputerSystems.Kernel
open ComputerSystems.Library

def storageLocation : Fin 3 → Nat
  | 0 => 0xB9000
  | 1 => 0xBA000
  | 2 => 0xBB000

namespace Console

def setTerminal (console : Console) (index : Fin 3) (terminal : Terminal) : Console :=
  { console with terminals := Function.update console.terminals index terminal }

/-- The position is a `uint16_t`, and the card keeps it. -/
def moveCursor (console : Console) (x y : Nat) : Console :=
  { console with cursor := some ((y * numCols + x) % 2 ^ 16) }

end Console

/-- The loop that should clear the screens starts from `VIDEO_BASE + VIDEO_BASE`. -/
def initTerminals (console : Console) : Console where
  terminals index :=
    { console.terminals index with
      buffer := fun position =>
        if position < terminalBufferSize then 0 else (console.terminals index).buffer position
      videoStart := if index = 0 then videoBase else storageLocation index
      storageLocation := storageLocation index
      posX := 0
      posY := 0
      charsInBuffer := 0
      activeProcess := -1 }
  activeTerminalIndex := 0
  video address :=
    if videoBase + videoBase ≤ address ∧ address < videoBase + storageLocation 2 + kb4 then 0
    else console.video address
  cursor := console.cursor

/-- A screen cell is a character byte and an attribute byte. -/
def storeCell (videoStart cell : Nat) (input attr : UInt8) (video : Nat → UInt8) :
    Nat → UInt8 :=
  Function.update (Function.update video (videoStart + 2 * cell) input)
    (videoStart + 2 * cell + 1) attr

/-- One round of the scroll loop copies the cell one row below. -/
def copyCell (videoStart cell : Nat) (video : Nat → UInt8) : Nat → UInt8 :=
  storeCell videoStart cell (video (videoStart + 2 * (cell + numCols)))
    (video (videoStart + 2 * (cell + numCols) + 1)) video

def clearTerminal (index : Fin 3) (console : Console) : Console :=
  let terminal := console.terminals index
  let cleared := { console.setTerminal index { terminal with posX := 0, posY := 0 } with
    video := forLoop (fun cell => storeCell terminal.videoStart cell 32 attrib)
      0 (numRows * numCols) console.video }
  if index = console.activeTerminalIndex then cleared.moveCursor 0 0 else cleared

/-- The first part of `terminal_putc` places the character and advances the position. -/
def placeCharacter (input attr : UInt8) (terminal : Terminal) (video : Nat → UInt8) :
    Terminal × (Nat → UInt8) :=
  if input = 10 ∨ input = 13 then
    ({ terminal with posY := terminal.posY + 1, posX := 0 }, video)
  else
    let written := storeCell terminal.videoStart (numCols * terminal.posY + terminal.posX)
      input attr video
    if numCols ≤ terminal.posX + 1 then
      ({ terminal with posY := terminal.posY + 1, posX := 0 }, written)
    else ({ terminal with posX := terminal.posX + 1 }, written)

/-- The second part of `terminal_putc` scrolls the screen up. -/
def scrollScreen (terminal : Terminal) (video : Nat → UInt8) : Terminal × (Nat → UInt8) :=
  if numRows ≤ terminal.posY then
    let moved := forLoop (copyCell terminal.videoStart) 0 (numCols * (numRows - 1)) video
    let cleared := forLoop (fun cell => storeCell terminal.videoStart cell 32 attrib)
      (numCols * (numRows - 1)) numCols moved
    ({ terminal with posY := numRows - 1 }, cleared)
  else (terminal, video)

def terminalPutc (input attr : UInt8) (index : Fin 3) (console : Console) : Console :=
  let placed := placeCharacter input attr (console.terminals index) console.video
  let scrolled := scrollScreen placed.1 placed.2
  let written := { console.setTerminal index scrolled.1 with video := scrolled.2 }
  if index = console.activeTerminalIndex then
    written.moveCursor scrolled.1.posX scrolled.1.posY
  else written

/-- The loop of `terminal_write` counts up to a signed bound. -/
def terminalWrite (fd : Fin 8) (buffer : Option (Nat → UInt8)) (characters : Int)
    (index : Fin 3) (console : Console) : Int × Console :=
  if fd = 0 then (-1, console)
  else
    match buffer with
    | none => (-1, console)
    | some bytes =>
        (characters.toNat, forLoop (fun position => terminalPutc (bytes position) attrib index)
          0 characters.toNat console)

/-- An index of minus one reads the byte in front of the buffer. -/
def Terminal.bufferAt (terminal : Terminal) (position : Int) : UInt8 :=
  if position < 0 then terminal.beforeBuffer else terminal.buffer position.toNat

/-- The wait loop of `terminal_read` goes on while this holds. -/
def readWaits (numBytes : Int) (terminal : Terminal) : Bool :=
  terminal.charsInBuffer < numBytes &&
    terminal.bufferAt (terminal.charsInBuffer - 1) != 10

/-- The comparison with the count of characters is unsigned. -/
def readLength (numBytes : Int) (terminal : Terminal) : Nat :=
  if (numBytes % 2 ^ 32).toNat < terminal.charsInBuffer then (numBytes % 2 ^ 32).toNat
  else terminal.charsInBuffer

/-- The critical section of `terminal_read` moves the rest of the buffer to its front. -/
def takeInput (length : Nat) (terminal : Terminal) : Terminal :=
  { terminal with
    charsInBuffer := terminal.charsInBuffer - length
    buffer := forLoop (fun position buffer =>
      Function.update buffer position (buffer (length + position)))
        0 (terminalBufferSize - length) terminal.buffer }

def clipLength (numBytes : Int) : Int :=
  if numBytes > terminalBufferSize then terminalBufferSize else numBytes

/-- The bytes that `terminal_read` copies to the caller. -/
def copyInput (length : Nat) (terminal : Terminal) (bytes : Nat → UInt8) : Nat → UInt8 :=
  forLoop (fun position current => Function.update current position (terminal.buffer position))
    0 length bytes

/-- The critical section runs on the console that interrupts have left. -/
def readCritical (numBytes : Int) (index : Fin 3) (bytes : Nat → UInt8) (console : Console) :
    Int × (Nat → UInt8) × Console :=
  let terminal := console.terminals index
  let length := readLength (clipLength numBytes) terminal
  (length, copyInput length terminal bytes, console.setTerminal index (takeInput length terminal))

/-- The console at the last test of the wait loop and the one at the critical section differ
from the console at the call by the interrupts in between. No result means that it waits. -/
def terminalRead (fd : Fin 8) (buffer : Option (Nat → UInt8)) (numBytes : Int)
    (index : Fin 3) (console tested entered : Console) :
    Option (Int × Option (Nat → UInt8) × Console) :=
  if fd = 1 then some (-1, buffer, console)
  else
    match buffer with
    | none => some (-1, none, console)
    | some bytes =>
        if readWaits (clipLength numBytes) (tested.terminals index) then none
        else
          let read := readCritical numBytes index bytes entered
          some (read.1, some read.2.1, read.2.2)

end ComputerSystems.Kernel
