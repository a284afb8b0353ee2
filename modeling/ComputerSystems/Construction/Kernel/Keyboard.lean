import ComputerSystems.Construction.Kernel.Scheduler

namespace ComputerSystems.Kernel

/-- The bytes of a scancode table in the order of the scancodes. -/
def lowercaseScancodes : List UInt8 :=
  [0, 0, 49, 50, 51, 52, 53, 54, 55, 56, 57, 48, 45, 61, 0, 0,
   113, 119, 101, 114, 116, 121, 117, 105, 111, 112, 91, 93, 10, 0, 97, 115,
   100, 102, 103, 104, 106, 107, 108, 59, 39, 96, 0, 92, 122, 120, 99, 118,
   98, 110, 109, 44, 46, 47, 0, 0, 0, 32, 0, 0, 0, 0, 0, 0]

def shiftcaseScancodes : List UInt8 :=
  [0, 0, 33, 64, 35, 36, 37, 94, 38, 42, 40, 41, 95, 43, 0, 0,
   81, 87, 69, 82, 84, 89, 85, 73, 79, 80, 123, 125, 10, 0, 65, 83,
   68, 70, 71, 72, 74, 75, 76, 58, 34, 126, 0, 124, 90, 88, 67, 86,
   66, 78, 77, 60, 62, 63, 0, 0, 0, 32, 0, 0, 0, 0, 0, 0]

/-- The capslock table has a backslash where the other two have a newline. -/
def capslockScancodes : List UInt8 :=
  [0, 0, 49, 50, 51, 52, 53, 54, 55, 56, 57, 48, 45, 61, 0, 0,
   81, 87, 69, 82, 84, 89, 85, 73, 79, 80, 91, 93, 92, 0, 65, 83,
   68, 70, 71, 72, 74, 75, 76, 59, 39, 96, 0, 92, 90, 88, 67, 86,
   66, 78, 77, 44, 46, 47, 0, 0, 0, 32, 0, 0, 0, 0, 0, 0]

namespace Keyboard

def shift (keyboard : Keyboard) : Bool := keyboard.leftShift || keyboard.rightShift

def ctrl (keyboard : Keyboard) : Bool := keyboard.leftCtrl || keyboard.rightCtrl

def alt (keyboard : Keyboard) : Bool := keyboard.leftAlt || keyboard.rightAlt

/-- The modifier keys as one scancode changes them. The second scancode counts after 0xE0. -/
def update (scancode next : UInt8) (keyboard : Keyboard) : Keyboard :=
  if scancode = 0x1D then { keyboard with leftCtrl := true }
  else if scancode = 0x2A then { keyboard with leftShift := true }
  else if scancode = 0x36 then { keyboard with rightShift := true }
  else if scancode = 0x38 then { keyboard with leftAlt := true }
  else if scancode = 0x3A then
    if keyboard.capsHeld then keyboard
    else { keyboard with capsHeld := true, caps := !keyboard.caps }
  else if scancode = 0x9D then { keyboard with leftCtrl := false }
  else if scancode = 0xAA then { keyboard with leftShift := false }
  else if scancode = 0xB6 then { keyboard with rightShift := false }
  else if scancode = 0xB8 then { keyboard with leftAlt := false }
  else if scancode = 0xBA then { keyboard with capsHeld := false }
  else if scancode = 0xE0 then
    if next = 0x1D then { keyboard with rightCtrl := true }
    else if next = 0x38 then { keyboard with rightAlt := true }
    else if next = 0x9D then { keyboard with rightCtrl := false }
    else if next = 0xB8 then { keyboard with rightAlt := false }
    else keyboard
  else keyboard

/-- The character of a scancode up to 0x3F. -/
def pressed (scancode : UInt8) (keyboard : Keyboard) : UInt8 :=
  if keyboard.shift && !keyboard.caps then shiftcaseScancodes.getD scancode.toNat 0
  else if !keyboard.shift && keyboard.caps then capslockScancodes.getD scancode.toNat 0
  else lowercaseScancodes.getD scancode.toNat 0

end Keyboard

/-- A backspace drops the last character of the buffer before it moves the position. -/
def dropLast (terminal : Terminal) : Terminal :=
  { terminal with
    charsInBuffer := terminal.charsInBuffer - 1
    buffer := Function.update terminal.buffer (terminal.charsInBuffer - 1) 0 }

/-- A backspace on the active terminal. -/
def backspace (console : Console) : Console :=
  let index := console.activeTerminalIndex
  let terminal := console.terminals index
  if terminal.charsInBuffer = 0 then console
  else
    let dropped := dropLast terminal
    if terminal.posX = 0 ∧ terminal.posY = 0 then console.setTerminal index dropped
    else
      let moved :=
        if terminal.posX = 0 then
          { dropped with posY := terminal.posY - 1, posX := numCols - 1 }
        else { dropped with posX := terminal.posX - 1 }
      let erased := { console.setTerminal index moved with
        video := storeCell moved.videoStart (numCols * moved.posY + moved.posX) 32 attrib
          console.video }
      erased.moveCursor moved.posX moved.posY

/-- One place in the buffer is left for a newline. -/
def accepts (pressed : UInt8) (terminal : Terminal) : Bool :=
  terminal.charsInBuffer < terminalBufferSize - 1 ||
    pressed == 10 && terminal.charsInBuffer < terminalBufferSize

def storeCharacter (pressed : UInt8) (terminal : Terminal) : Terminal :=
  { terminal with
    buffer := Function.update terminal.buffer terminal.charsInBuffer pressed
    charsInBuffer := terminal.charsInBuffer + 1 }

/-- An accepted character is echoed and stored, and any other is ignored. -/
def typeCharacter (pressed : UInt8) (console : Console) : Console :=
  let index := console.activeTerminalIndex
  if accepts pressed (console.terminals index) then
    let echoed := terminalPutc pressed attrib index console
    echoed.setTerminal index (storeCharacter pressed (echoed.terminals index))
  else console

/-- The terminal that an alt key names. -/
def altTarget (scancode : UInt8) : Option Nat :=
  if scancode = 0x3B then some 0
  else if scancode = 0x3C then some 1
  else if scancode = 0x3D then some 2
  else none

def handleKeypress (fs : FileSystem) (scancode nextScancode : UInt8) (machine : Machine) :
    Except Stop Machine :=
  let keyboard := machine.keyboard.update scancode nextScancode
  let updated := { machine with keyboard := keyboard }
  let erased :=
    if scancode = 0x0E then { updated with console := backspace updated.console } else updated
  if scancode > 0x3F then .ok erased
  else
    let pressed := keyboard.pressed scancode
    if keyboard.ctrl && (pressed == 108 || pressed == 76) then
      .ok { erased with
        console := clearTerminal erased.console.activeTerminalIndex erased.console }
    else
      let switched :=
        match altTarget scancode with
        | none => .ok erased
        | some next => if keyboard.alt then switchTerminal fs next erased else .ok erased
      if pressed = 0 ∨ keyboard.alt ∨ keyboard.ctrl then switched
      else switched.map fun final => { final with console := typeCharacter pressed final.console }

end ComputerSystems.Kernel
