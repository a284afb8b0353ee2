import ComputerSystems.Construction.Kernel.Keyboard
import ComputerSystems.Library.Confined

namespace ComputerSystems.Kernel
open ComputerSystems.Library

/-- The buffer of a terminal with the indices that were used so far. -/
def Terminal.logged (terminal : Terminal) (touched : List Int) : Logged Int UInt8 :=
  ⟨terminal.bufferAt, touched⟩

/-- The accesses of a backspace. -/
def eraseBuffer (terminal : Terminal) (logged : Logged Int UInt8) : Logged Int UInt8 :=
  if terminal.charsInBuffer = 0 then logged else logged.store ((terminal.charsInBuffer : Int) - 1) 0

/-- The accesses of a typed character. -/
def typeBuffer (pressed : UInt8) (terminal : Terminal) (logged : Logged Int UInt8) :
    Logged Int UInt8 :=
  if accepts pressed terminal then logged.store terminal.charsInBuffer pressed else logged

/-- The accesses of `handle_keypress`. They go to the buffer of the active terminal. -/
def keypressBuffer (scancode nextScancode : UInt8) (keyboard : Keyboard) (terminal : Terminal)
    (logged : Logged Int UInt8) : Logged Int UInt8 :=
  let keyboard := keyboard.update scancode nextScancode
  let erased := if scancode = 0x0E then eraseBuffer terminal logged else logged
  if scancode > 0x3F then erased
  else
    let pressed := keyboard.pressed scancode
    if pressed = 0 ∨ keyboard.alt ∨ keyboard.ctrl then erased
    else typeBuffer pressed terminal erased

/-- The copy loop of the critical section. -/
def copyBuffer (length : Nat) (bytes : Nat → UInt8) (logged : Logged Int UInt8) :
    (Nat → UInt8) × Logged Int UInt8 :=
  forLoop (fun position current =>
    let loaded := current.2.load (position : Int)
    (Function.update current.1 position loaded.1, loaded.2)) 0 length (bytes, logged)

/-- The shift loop of the critical section. -/
def shiftBuffer (length : Nat) (logged : Logged Int UInt8) : Logged Int UInt8 :=
  forLoop (fun position current => current.move (length + position : Nat) position)
    0 (terminalBufferSize - length) logged

/-- The arguments of a `terminal_read` that has passed its checks. -/
structure ReadRequest where
  index : Fin 3
  bytes : Nat → UInt8
  numBytes : Int

/-- Where a process is in `terminal_read`. Interrupts come between the comparison with the count
of characters, the test of the last character and the critical section. -/
inductive ReadPoint where
  | comparing (call : ReadRequest)
  | testing (call : ReadRequest)
  | leaving (call : ReadRequest)
  | returned (result : Int) (buffer : Option (Nat → UInt8))

/-- The checks at the start of `terminal_read`. -/
def enterRead (fd : Fin 8) (buffer : Option (Nat → UInt8)) (numBytes : Int) (index : Fin 3) :
    ReadPoint :=
  if fd = 1 then .returned (-1) buffer
  else
    match buffer with
    | none => .returned (-1) none
    | some bytes => .comparing ⟨index, bytes, numBytes⟩

/-- The state of the processes that read, with the indices that were used so far. -/
structure ReadingState where
  machine : Machine
  points : Nat → ReadPoint
  touched : List Int

/-- The next step of `terminal_read` in one process. A call that has returned has none. -/
def advanceRead (pid : Nat) (state : ReadingState) : Except Stop ReadingState :=
  match state.points pid with
  | .comparing call =>
      let terminal := state.machine.console.terminals call.index
      let next := if terminal.charsInBuffer < clipLength call.numBytes then .testing call
        else .leaving call
      .ok { state with points := Function.update state.points pid next }
  | .testing call =>
      let terminal := state.machine.console.terminals call.index
      let loaded := (terminal.logged state.touched).load ((terminal.charsInBuffer : Int) - 1)
      let next := if loaded.1 = 10 then .leaving call else .comparing call
      .ok { state with
        points := Function.update state.points pid next
        touched := loaded.2.touched }
  | .leaving call =>
      let terminal := state.machine.console.terminals call.index
      let length := readLength (clipLength call.numBytes) terminal
      let copied := copyBuffer length call.bytes (terminal.logged state.touched)
      let read := readCritical call.numBytes call.index call.bytes state.machine.console
      .ok {
        machine := { state.machine with console := read.2.2 }
        points := Function.update state.points pid (.returned read.1 read.2.1)
        touched := (shiftBuffer length copied.2).touched }
  | .returned _ _ => .error .waiting

inductive ReadingEvent where
  | key (scancode nextScancode : UInt8)
  | call (pid : Nat) (fd : Fin 8) (buffer : Option (Nat → UInt8)) (numBytes : Int)
      (index : Fin 3)
  | advance (pid : Nat)
  | write (fd : Fin 8) (buffer : Option (Nat → UInt8)) (characters : Int) (index : Fin 3)
  | switch (nextTerminalIndex : Nat)
  | processes (active : Nat → Bool) (activeProcess : Fin 3 → Int)

/-- A process that is still in `terminal_read` makes no other call. -/
def readingStep (fs : FileSystem) (state : ReadingState) :
    ReadingEvent → Except Stop ReadingState
  | .key scancode nextScancode =>
      let console := state.machine.console
      let terminal := console.terminals console.activeTerminalIndex
      (handleKeypress fs scancode nextScancode state.machine).map fun after =>
        { state with
          machine := after
          touched := (keypressBuffer scancode nextScancode state.machine.keyboard terminal
            (terminal.logged state.touched)).touched }
  | .call pid fd buffer numBytes index =>
      match state.points pid with
      | .returned _ _ =>
          let entered := enterRead fd buffer numBytes index
          .ok { state with points := Function.update state.points pid entered }
      | _ => .error .waiting
  | .advance pid => advanceRead pid state
  | .write fd buffer characters index =>
      .ok { state with machine := { state.machine with
        console := (terminalWrite fd buffer characters index state.machine.console).2 } }
  | .switch next =>
      (switchTerminal fs next state.machine).map fun after => { state with machine := after }
  | .processes active activeProcess =>
      .ok { state with machine := { state.machine with
        active := active
        console := { state.machine.console with
          terminals := fun index =>
            { state.machine.console.terminals index with
              activeProcess := activeProcess index } } } }

/-- No process has called `terminal_read` in the state that `init_terminals` sets up. -/
def freshReading (machine : Machine) : ReadingState where
  machine := { machine with console := initTerminals machine.console }
  points _ := .returned 0 none
  touched := []

end ComputerSystems.Kernel
