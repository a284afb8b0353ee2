import ComputerSystems.Proof.Kernel.TerminalScreens

namespace ComputerSystems.Kernel
open ComputerSystems.Library

/-- What the readers of one terminal have got, and what was typed on it. -/
structure InputLog where
  delivered : List UInt8
  typed : List UInt8

namespace InputLog

/-- The number of typed characters that no reader has got. -/
def pending (log : InputLog) : Nat := log.typed.length - log.delivered.length

/-- A backspace deletes the last character that no reader has got. -/
def backspace (log : InputLog) : InputLog :=
  if log.pending = 0 then log else { log with typed := log.typed.dropLast }

/-- A character is accepted below 127 pending ones, and a newline below 128. -/
def accepts (character : UInt8) (log : InputLog) : Bool :=
  log.pending < 127 || character == 10 && log.pending < 128

def type (character : UInt8) (log : InputLog) : InputLog :=
  if log.accepts character then { log with typed := log.typed ++ [character] } else log

def deliver (bytes : List UInt8) (log : InputLog) : InputLog :=
  { log with delivered := log.delivered ++ bytes }

end InputLog

/-- The character that a scancode yields. The control and alt keys suppress it. -/
def Keyboard.character (scancode : UInt8) (keyboard : Keyboard) : Option UInt8 :=
  if scancode > 0x3F ∨ keyboard.pressed scancode = 0 ∨ keyboard.alt ∨ keyboard.ctrl then none
  else some (keyboard.pressed scancode)

/-- One key press on the terminal that it goes to. -/
def InputLog.press (scancode nextScancode : UInt8) (keyboard : Keyboard) (log : InputLog) :
    InputLog :=
  if scancode = 0x0E then log.backspace
  else
    match (keyboard.update scancode nextScancode).character scancode with
    | none => log
    | some character => log.type character

/-- The first bytes of the buffer of the caller are the ones that a read returns. -/
def returnedBytes (count : Int) : Option (Nat → UInt8) → List UInt8
  | none => []
  | some bytes => (List.range count.toNat).map bytes

/-- A machine with the logs of its terminals. -/
structure TypingState where
  machine : Machine
  logs : Fin 3 → InputLog

/-- What happens to the input. A read completes here, and its wait loop was last tested on any
earlier console. -/
inductive TypingEvent where
  | key (scancode nextScancode : UInt8)
  | read (fd : Fin 8) (buffer : Option (Nat → UInt8)) (numBytes : Int) (index : Fin 3)
      (tested : Console)
  | write (fd : Fin 8) (buffer : Option (Nat → UInt8)) (characters : Int) (index : Fin 3)
  | switch (nextTerminalIndex : Nat)
  | processes (active : Nat → Bool) (activeProcess : Fin 3 → Int)

def typingStep (fs : FileSystem) (state : TypingState) :
    TypingEvent → Except Stop TypingState
  | .key scancode nextScancode =>
      let index := state.machine.console.activeTerminalIndex
      (handleKeypress fs scancode nextScancode state.machine).map fun after =>
        ⟨after, Function.update state.logs index
          ((state.logs index).press scancode nextScancode state.machine.keyboard)⟩
  | .read fd buffer numBytes index tested =>
      match terminalRead fd buffer numBytes index state.machine.console tested
        state.machine.console with
      | none => .error .waiting
      | some (count, bytes, console) =>
          .ok ⟨{ state.machine with console := console }, Function.update state.logs index
            ((state.logs index).deliver (returnedBytes count bytes))⟩
  | .write fd buffer characters index =>
      .ok { state with machine := { state.machine with
        console := (terminalWrite fd buffer characters index state.machine.console).2 } }
  | .switch next =>
      (switchTerminal fs next state.machine).map fun after => { state with machine := after }
  | .processes active activeProcess =>
      .ok { state with machine := { state.machine with
        active := active
        console := { state.machine.console with
          terminals := fun index =>
            { state.machine.console.terminals index with
              activeProcess := activeProcess index } } } }

/-- Nothing is typed in the state that `init_terminals` sets up. -/
def freshTyping (machine : Machine) : TypingState where
  machine := { machine with console := initTerminals machine.console }
  logs _ := ⟨[], []⟩

namespace Terminal

/-- The bytes that wait in the buffer. -/
def contents (terminal : Terminal) : List UInt8 :=
  (List.range terminal.charsInBuffer).map terminal.buffer

@[simp] theorem contents_length (terminal : Terminal) :
    terminal.contents.length = terminal.charsInBuffer := by
  simp [contents]

@[simp] theorem contents_getElem (terminal : Terminal) {position : Nat}
    (inside : position < terminal.contents.length) :
    terminal.contents[position] = terminal.buffer position := by
  simp [contents]

theorem contents_storeCharacter (character : UInt8) (terminal : Terminal) :
    (storeCharacter character terminal).contents = terminal.contents ++ [character] := by
  unfold contents storeCharacter
  dsimp only
  rw [List.range_succ, List.map_append, List.map_singleton, Function.update_self]
  congr 1
  apply List.map_congr_left
  intro position inside
  rw [List.mem_range] at inside
  rw [Function.update_of_ne (by omega)]

theorem contents_dropLast (terminal : Terminal) :
    (dropLast terminal).contents = terminal.contents.dropLast := by
  apply List.ext_getElem
  · simp [dropLast]
  · intro position inside _
    rw [contents_length] at inside
    have early : position < terminal.charsInBuffer - 1 := inside
    rw [List.getElem_dropLast, contents_getElem, contents_getElem]
    exact Function.update_of_ne (by omega) ..

end Terminal

/-- The shift loop moves the rest of the buffer to its front. -/
theorem takeInput_buffer {length : Nat} {terminal : Terminal} {position : Nat}
    (inside : length + position < terminalBufferSize) :
    (takeInput length terminal).buffer position = terminal.buffer (length + position) := by
  unfold takeInput
  dsimp only
  rw [forLoop_update (fun place => terminal.buffer (length + place))]
  · rw [if_pos (by omega)]
  · intro done current early before
    rw [before, if_neg (by omega)]

/-- The copy loop stores the first bytes of the buffer. -/
theorem copyInput_apply {length position : Nat} (inside : position < length)
    (terminal : Terminal) (bytes : Nat → UInt8) :
    copyInput length terminal bytes position = terminal.buffer position := by
  unfold copyInput
  rw [forLoop_update terminal.buffer (fun _ _ _ _ => rfl), if_pos inside]

namespace Terminal
variable {length : Nat} {terminal : Terminal}

theorem contents_takeInput (length : Nat) (bounded : terminal.charsInBuffer ≤ terminalBufferSize) :
    (takeInput length terminal).contents = terminal.contents.drop length := by
  apply List.ext_getElem
  · simp [takeInput]
  · intro position inside _
    rw [contents_length] at inside
    have early : position < terminal.charsInBuffer - length := inside
    rw [List.getElem_drop, contents_getElem, contents_getElem]
    exact takeInput_buffer (by omega)

/-- A read returns the first bytes that wait. -/
theorem returnedBytes_copyInput (available : length ≤ terminal.charsInBuffer)
    (bytes : Nat → UInt8) :
    returnedBytes length (some (copyInput length terminal bytes)) =
      terminal.contents.take length := by
  apply List.ext_getElem
  · simp [returnedBytes, available]
  · intro position inside _
    have early : position < length := by simpa [returnedBytes] using inside
    rw [List.getElem_take, contents_getElem]
    simpa [returnedBytes] using copyInput_apply early terminal bytes

end Terminal

theorem readLength_le (numBytes : Int) (terminal : Terminal) :
    readLength numBytes terminal ≤ terminal.charsInBuffer := by
  unfold readLength
  split_ifs with fewer
  · exact fewer.le
  · exact le_rfl

/-- The bytes that readers have got and those that wait are what was typed. -/
structure Recorded (terminal : Terminal) (log : InputLog) : Prop where
  content : log.delivered ++ terminal.contents = log.typed
  bounded : terminal.charsInBuffer ≤ terminalBufferSize

namespace Recorded
variable {terminal after : Terminal} {log : InputLog}

theorem pending (recorded : Recorded terminal log) : log.pending = terminal.charsInBuffer := by
  unfold InputLog.pending
  rw [← recorded.content, List.length_append, Nat.add_sub_cancel_left, Terminal.contents_length]

/-- The buffer takes the characters that the log accepts. -/
theorem accepts (recorded : Recorded terminal log) (character : UInt8) :
    Kernel.accepts character terminal = log.accepts character := by
  unfold InputLog.accepts
  rw [recorded.pending]
  rfl

/-- Only the buffer and its count matter. -/
theorem keep (recorded : Recorded terminal log) (buffer : after.buffer = terminal.buffer)
    (count : after.charsInBuffer = terminal.charsInBuffer) : Recorded after log := by
  refine ⟨?_, by rw [count]; exact recorded.bounded⟩
  rw [← recorded.content, Terminal.contents, Terminal.contents, buffer, count]

theorem type (recorded : Recorded terminal log) {character : UInt8}
    (room : Kernel.accepts character terminal = true) :
    Recorded (storeCharacter character terminal) (log.type character) := by
  rw [InputLog.type, ← recorded.accepts, if_pos room]
  refine ⟨?_, ?_⟩
  · rw [Terminal.contents_storeCharacter, ← List.append_assoc, recorded.content]
  · unfold Kernel.accepts at room
    simp only [Bool.or_eq_true, Bool.and_eq_true, decide_eq_true_eq, terminalBufferSize] at room
    change terminal.charsInBuffer + 1 ≤ 128
    omega

theorem refuse (recorded : Recorded terminal log) {character : UInt8}
    (full : Kernel.accepts character terminal = false) :
    Recorded terminal (log.type character) := by
  rw [InputLog.type, ← recorded.accepts, full]
  exact recorded

theorem erase (recorded : Recorded terminal log) (waiting : terminal.charsInBuffer ≠ 0) :
    Recorded (dropLast terminal) log.backspace := by
  rw [InputLog.backspace, recorded.pending, if_neg waiting]
  refine ⟨?_, ?_⟩
  · have some : terminal.contents ≠ [] := by
      intro none
      apply waiting
      rw [← Terminal.contents_length, none, List.length_nil]
    rw [Terminal.contents_dropLast, ← List.dropLast_append_of_ne_nil some, recorded.content]
  · have bound := recorded.bounded
    change terminal.charsInBuffer - 1 ≤ _
    omega

theorem idle (recorded : Recorded terminal log) (empty : terminal.charsInBuffer = 0) :
    Recorded terminal log.backspace := by
  rw [InputLog.backspace, recorded.pending, if_pos empty]
  exact recorded

/-- A read moves its bytes from the buffer to the reader. -/
theorem read (recorded : Recorded terminal log) (numBytes : Int) (bytes : Nat → UInt8) :
    let length := readLength numBytes terminal
    Recorded (takeInput length terminal)
      (log.deliver (returnedBytes length (some (copyInput length terminal bytes)))) := by
  intro length
  have available := readLength_le numBytes terminal
  refine ⟨?_, ?_⟩
  · rw [Terminal.contents_takeInput length recorded.bounded,
      Terminal.returnedBytes_copyInput available]
    change (log.delivered ++ terminal.contents.take length) ++ _ = log.typed
    rw [List.append_assoc, List.take_append_drop, recorded.content]
  · have bound := recorded.bounded
    change terminal.charsInBuffer - length ≤ _
    omega

end Recorded

/-- No terminal has lost or gained input. -/
def SameInput (before after : Console) : Prop :=
  ∀ index, (after.terminals index).buffer = (before.terminals index).buffer ∧
    (after.terminals index).charsInBuffer = (before.terminals index).charsInBuffer

theorem sameInput_refl (console : Console) : SameInput console console := fun _ => ⟨rfl, rfl⟩

theorem SameInput.trans {before between after : Console} (first : SameInput before between)
    (second : SameInput between after) : SameInput before after :=
  fun index => ⟨(second index).1.trans (first index).1, (second index).2.trans (first index).2⟩

theorem sameInput_redrawn (console : Console) (index : Fin 3) (posX posY : Nat)
    (video : Nat → UInt8) : SameInput console (redrawn console index
      { console.terminals index with posX := posX, posY := posY } video) := by
  intro other
  rw [(redrawn_fields console index _ video).1]
  constructor
  · apply console.setTerminal_field Terminal.buffer
    rfl
  · apply console.setTerminal_field Terminal.charsInBuffer
    rfl

theorem sameInput_terminalPutc (input attr : UInt8) (index : Fin 3) (console : Console) :
    SameInput console (terminalPutc input attr index console) := by
  obtain ⟨posX, posY, moved⟩ := putc_terminal input attr (console.terminals index) console.video
  change SameInput console (redrawn console index (scrollScreen _ _).1 (scrollScreen _ _).2)
  rw [moved]
  exact sameInput_redrawn console index posX posY _

theorem sameInput_terminalWrite (fd : Fin 8) (buffer : Option (Nat → UInt8)) (characters : Int)
    (index : Fin 3) (console : Console) :
    SameInput console (terminalWrite fd buffer characters index console).2 := by
  unfold terminalWrite
  split
  · exact sameInput_refl console
  · cases buffer with
    | none => exact sameInput_refl console
    | some bytes =>
        apply forLoop_rule fun _ current => SameInput console current
        · exact sameInput_refl console
        · intro done current early same
          exact same.trans (sameInput_terminalPutc (bytes (0 + done)) attrib index current)

theorem sameInput_showTerminal {next : Fin 3} {console : Console}
    (hidden : next ≠ console.activeTerminalIndex) :
    SameInput console (showTerminal next console) := by
  intro other
  rw [showTerminal_terminals hidden]
  exact ⟨rfl, rfl⟩

theorem sameInput_setActiveProcess (machine : Machine) (index : Fin 3) (pid : Int) :
    SameInput machine.console (machine.setActiveProcess index pid).console :=
  fun other => ⟨machine.setActiveProcess_field Terminal.buffer index pid (fun _ => rfl) other,
    machine.setActiveProcess_field Terminal.charsInBuffer index pid (fun _ => rfl) other⟩

/-- A switch keeps the input of every terminal. -/
theorem sameInput_switchTerminal {fs : FileSystem} {next : Nat} {machine after : Machine}
    (finished : switchTerminal fs next machine = .ok after) :
    SameInput machine.console after.console := by
  rcases switchTerminal_cases finished with ⟨_, rfl⟩ | ⟨inRange, hidden, cases⟩
  · exact sameInput_refl _
  · rcases cases with ⟨occupied, rfl⟩ | ⟨vacant, ⟨full, rfl⟩ | ⟨slot, frames, free, rfl⟩⟩
    · exact sameInput_showTerminal hidden
    · exact sameInput_refl _
    · exact (sameInput_showTerminal hidden).trans
        (sameInput_setActiveProcess (switchScreens ⟨next, inRange⟩ machine) _ _)

theorem pressed_backspace (keyboard : Keyboard) : keyboard.pressed 0x0E = 0 := by
  unfold Keyboard.pressed
  split_ifs <;> rfl

section
variable {fs : FileSystem} {scancode nextScancode : UInt8} {machine after : Machine}

/-- The backspace key does nothing else. -/
theorem handleKeypress_backspace
    (finished : handleKeypress fs 0x0E nextScancode machine = .ok after) :
    after.console = backspace machine.console := by
  unfold handleKeypress at finished
  simp [pressed_backspace, altTarget] at finished
  rw [← finished]

/-- A key without a character may clear or switch the screen. -/
theorem handleKeypress_none (other : scancode ≠ 0x0E)
    (silent : (machine.keyboard.update scancode nextScancode).character scancode = none)
    (finished : handleKeypress fs scancode nextScancode machine = .ok after) :
    SameInput machine.console after.console := by
  unfold handleKeypress at finished
  simp only [if_neg other] at finished
  split at finished
  · cases finished
    exact sameInput_refl _
  · next low =>
    split at finished
    · cases finished
      exact sameInput_redrawn machine.console machine.console.activeTerminalIndex 0 0 _
    · split at finished
      · next suppressed =>
        split at finished
        · cases finished
          exact sameInput_refl _
        · split at finished
          · have kept := sameInput_switchTerminal finished
            exact kept
          · cases finished
            exact sameInput_refl _
      · next plain =>
        unfold Keyboard.character at silent
        rw [if_neg (not_or.2 ⟨low, plain⟩)] at silent
        cases silent

/-- A key with a character types it. -/
theorem handleKeypress_some (other : scancode ≠ 0x0E) {character : UInt8}
    (yields : (machine.keyboard.update scancode nextScancode).character scancode = some character)
    (finished : handleKeypress fs scancode nextScancode machine = .ok after) :
    after.console = typeCharacter character machine.console := by
  unfold Keyboard.character at yields
  split at yields
  · cases yields
  · next plain =>
    cases yields
    simp only [not_or, Bool.not_eq_true] at plain
    obtain ⟨low, visible, noAlt, noCtrl⟩ := plain
    unfold handleKeypress at finished
    simp only [if_neg other, if_neg low, noAlt, noCtrl, visible, Bool.false_and,
      Bool.false_eq_true, if_false, or_self] at finished
    cases target : altTarget scancode with
    | none =>
        rw [target] at finished
        cases finished
        rfl
    | some next =>
        rw [target] at finished
        cases finished
        rfl

end

section
variable {console : Console} {character : UInt8}

theorem backspace_empty
    (empty : (console.terminals console.activeTerminalIndex).charsInBuffer = 0) :
    backspace console = console :=
  if_pos empty

/-- A backspace drops the last character of the active terminal and moves its position. -/
theorem backspace_terminals
    (waiting : (console.terminals console.activeTerminalIndex).charsInBuffer ≠ 0) :
    ∃ posX posY, (backspace console).terminals =
      (console.setTerminal console.activeTerminalIndex
        { dropLast (console.terminals console.activeTerminalIndex) with
          posX := posX, posY := posY }).terminals := by
  unfold backspace
  dsimp only
  rw [if_neg waiting]
  split_ifs
  · exact ⟨_, _, rfl⟩
  · exact ⟨_, _, rfl⟩
  · exact ⟨_, _, rfl⟩

theorem typeCharacter_refused
    (full : accepts character (console.terminals console.activeTerminalIndex) = false) :
    typeCharacter character console = console := by
  unfold typeCharacter
  dsimp only
  rw [full]
  rfl

/-- An accepted character goes to the buffer of the active terminal and moves its position. -/
theorem typeCharacter_terminals
    (room : accepts character (console.terminals console.activeTerminalIndex) = true) :
    ∃ posX posY, (typeCharacter character console).terminals =
      (console.setTerminal console.activeTerminalIndex
        { storeCharacter character (console.terminals console.activeTerminalIndex) with
          posX := posX, posY := posY }).terminals := by
  obtain ⟨posX, posY, moved⟩ := putc_terminal character attrib
    (console.terminals console.activeTerminalIndex) console.video
  have printed : (terminalPutc character attrib console.activeTerminalIndex console).terminals =
      (console.setTerminal console.activeTerminalIndex
        { console.terminals console.activeTerminalIndex with
          posX := posX, posY := posY }).terminals := by
    rw [← moved]
    exact (redrawn_fields console console.activeTerminalIndex (scrollScreen _ _).1 _).1
  refine ⟨posX, posY, ?_⟩
  unfold typeCharacter
  dsimp only
  rw [if_pos room]
  change Function.update (terminalPutc _ _ _ _).terminals _
    (storeCharacter character ((terminalPutc _ _ _ _).terminals _)) = _
  rw [printed, Console.setTerminal_self]
  exact Function.update_idem ..

end

/-- Every terminal has its log recorded. -/
def AllRecorded (console : Console) (logs : Fin 3 → InputLog) : Prop :=
  ∀ index, Recorded (console.terminals index) (logs index)

namespace AllRecorded
variable {console after : Console} {logs : Fin 3 → InputLog}

theorem keep (recorded : AllRecorded console logs) (same : SameInput console after) :
    AllRecorded after logs :=
  fun index => (recorded index).keep (same index).1 (same index).2

theorem update (recorded : AllRecorded console logs) {index : Fin 3} {terminal : Terminal}
    {log : InputLog} (own : Recorded terminal log) :
    AllRecorded (console.setTerminal index terminal) (Function.update logs index log) := by
  intro other
  by_cases here : other = index
  · rw [here, Console.setTerminal_self, Function.update_self]
    exact own
  · rw [console.setTerminal_of_ne here, Function.update_of_ne here]
    exact recorded other

/-- The log of one terminal may change alone. -/
theorem relog (recorded : AllRecorded console logs) {index : Fin 3} {log : InputLog}
    (own : Recorded (console.terminals index) log) :
    AllRecorded console (Function.update logs index log) := by
  have same : AllRecorded (console.setTerminal index (console.terminals index)) _ :=
    recorded.update own
  unfold Console.setTerminal at same
  rw [Function.update_eq_self] at same
  exact same

/-- Only the terminals matter. -/
theorem congr (recorded : AllRecorded console logs) (same : after.terminals = console.terminals) :
    AllRecorded after logs := by
  unfold AllRecorded at recorded ⊢
  rw [same]
  exact recorded

/-- A backspace on the screen drops the last character of the active terminal. -/
theorem backspace (recorded : AllRecorded console logs) :
    AllRecorded (backspace console) (Function.update logs console.activeTerminalIndex
      (logs console.activeTerminalIndex).backspace) := by
  have own := recorded console.activeTerminalIndex
  by_cases empty : (console.terminals console.activeTerminalIndex).charsInBuffer = 0
  · rw [backspace_empty empty]
    exact recorded.relog (own.idle empty)
  · obtain ⟨posX, posY, terminals⟩ := backspace_terminals empty
    apply AllRecorded.congr (recorded.update _) terminals
    exact (own.erase empty).keep rfl rfl

/-- A typed character goes to the end of the buffer of the active terminal if it is accepted. -/
theorem type (recorded : AllRecorded console logs) (character : UInt8) :
    AllRecorded (typeCharacter character console) (Function.update logs
      console.activeTerminalIndex ((logs console.activeTerminalIndex).type character)) := by
  have own := recorded console.activeTerminalIndex
  cases room : accepts character (console.terminals console.activeTerminalIndex) with
  | false =>
      rw [typeCharacter_refused room]
      exact recorded.relog (own.refuse room)
  | true =>
      obtain ⟨posX, posY, terminals⟩ := typeCharacter_terminals room
      apply AllRecorded.congr (recorded.update _) terminals
      exact (own.type room).keep rfl rfl

/-- A key press does to the log what it does to the buffer. -/
theorem press {fs : FileSystem} {scancode nextScancode : UInt8} {machine final : Machine}
    (recorded : AllRecorded machine.console logs)
    (finished : handleKeypress fs scancode nextScancode machine = .ok final) :
    AllRecorded final.console (Function.update logs machine.console.activeTerminalIndex
      ((logs machine.console.activeTerminalIndex).press scancode nextScancode
        machine.keyboard)) := by
  unfold InputLog.press
  split
  · next key =>
    subst key
    rw [handleKeypress_backspace finished]
    exact recorded.backspace
  · next other =>
    split
    · next silent =>
      rw [Function.update_eq_self]
      exact recorded.keep (handleKeypress_none other silent finished)
    · next character yields =>
      rw [handleKeypress_some other yields finished]
      exact recorded.type character

/-- A completed read delivers what it takes from the buffer. -/
theorem read (recorded : AllRecorded console logs) {fd : Fin 8}
    {buffer bytes : Option (Nat → UInt8)} {numBytes count : Int} {index : Fin 3}
    {tested : Console}
    (finished : terminalRead fd buffer numBytes index console tested console =
      some (count, bytes, after)) :
    AllRecorded after (Function.update logs index
      ((logs index).deliver (returnedBytes count bytes))) := by
  have own := recorded index
  have silent : Recorded (console.terminals index) ((logs index).deliver []) :=
    ⟨by rw [InputLog.deliver, List.append_nil]; exact own.content, own.bounded⟩
  unfold terminalRead at finished
  split at finished
  · cases finished
    cases buffer <;> exact recorded.relog silent
  · cases buffer with
    | none =>
        cases finished
        exact recorded.relog silent
    | some target =>
        dsimp only at finished
        split at finished
        · cases finished
        · cases finished
          exact recorded.update (own.read (clipLength numBytes) target)

/-- Every step of the input does to the logs what it does to the buffers. -/
theorem step {fs : FileSystem} {state next : TypingState} {event : TypingEvent}
    (recorded : AllRecorded state.machine.console state.logs)
    (stepped : typingStep fs state event = .ok next) :
    AllRecorded next.machine.console next.logs := by
  cases event with
  | key scancode nextScancode =>
      obtain ⟨final, pressed, rfl⟩ := map_ok stepped
      exact recorded.press pressed
  | read fd buffer numBytes index tested =>
      unfold typingStep at stepped
      dsimp only at stepped
      split at stepped
      · cases stepped
      · next count bytes console finished =>
        cases stepped
        exact recorded.read finished
  | write fd buffer characters index =>
      cases stepped
      exact recorded.keep (sameInput_terminalWrite fd buffer characters index _)
  | switch target =>
      obtain ⟨final, switched, rfl⟩ := map_ok stepped
      exact recorded.keep (sameInput_switchTerminal switched)
  | processes active activeProcess =>
      cases stepped
      exact recorded.keep (sameInput_refl state.machine.console)

end AllRecorded

theorem allRecorded_freshTyping (machine : Machine) :
    AllRecorded (freshTyping machine).machine.console (freshTyping machine).logs :=
  fun _ => ⟨rfl, Nat.zero_le _⟩

/-- In every run the bytes that the readers of a terminal have got, followed by those in its
buffer, are the characters that were typed on it. -/
theorem keyboard_queue {fs : FileSystem} {machine : Machine} {events : List TypingEvent}
    {final : TypingState} (reached : run (typingStep fs) (freshTyping machine) events = .ok final)
    (index : Fin 3) :
    (final.logs index).delivered ++ (final.machine.console.terminals index).contents =
        (final.logs index).typed ∧
      (final.machine.console.terminals index).charsInBuffer ≤ terminalBufferSize ∧
      ∀ character, accepts character (final.machine.console.terminals index) =
        (final.logs index).accepts character := by
  have recorded := run_invariant
    (fun state : TypingState => AllRecorded state.machine.console state.logs)
    (fun state event next kept _ stepped => kept.step stepped)
    (allRecorded_freshTyping machine) (along_true _ _ events) reached
  exact ⟨(recorded index).content, (recorded index).bounded, (recorded index).accepts⟩

/-- A reader of two bytes has seen three in its buffer. -/
def seenConsole : Console :=
  { coldMachine.console with
    terminals := fun _ => { coldMachine.console.terminals 0 with charsInBuffer := 3 } }

/-- Three letters, a backspace, a read of two bytes, and a letter on the second terminal before
a read of the rest. -/
def typingEvents : List TypingEvent :=
  [.key 0x1E 0, .key 0x1F 0, .key 0x20 0, .key 0x0E 0, .key 0x21 0,
    .read 0 (some fun _ => 0) 2 0 seenConsole, .key 0x38 0, .key 0x3C 0, .key 0xB8 0, .key 0x22 0,
    .read 0 (some fun _ => 0) (-1) 0 seenConsole]

theorem keyboard_queue_typingEvents :
    ∃ final, run (typingStep shellImage) (freshTyping coldMachine) typingEvents = .ok final ∧
      (final.logs 0).delivered ++ (final.machine.console.terminals 0).contents =
        [97, 115, 102] ∧
      (final.logs 1).delivered ++ (final.machine.console.terminals 1).contents = [103] := by
  have passed : runCheck (typingStep shellImage) (freshTyping coldMachine) typingEvents
      (fun final => (final.logs 0).typed == [97, 115, 102] && (final.logs 1).typed == [103]) =
        true := by
    decide +kernel
  obtain ⟨final, reached, checked⟩ := runCheck_sound passed
  rw [Bool.and_eq_true, beq_iff_eq, beq_iff_eq] at checked
  exact ⟨final, reached, (keyboard_queue reached 0).1.trans checked.1,
    (keyboard_queue reached 1).1.trans checked.2⟩

end ComputerSystems.Kernel
