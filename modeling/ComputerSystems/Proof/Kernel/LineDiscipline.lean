import ComputerSystems.Proof.Kernel.KeyboardQueue

namespace ComputerSystems.Kernel
open ComputerSystems.Library

/-- The newline is nowhere but at the end. -/
def LastOnly (bytes : List UInt8) : Prop := 10 ∉ bytes.dropLast

namespace LastOnly
variable {bytes : List UInt8}

theorem dropLast (line : LastOnly bytes) : LastOnly bytes.dropLast :=
  fun member => line (List.mem_of_mem_dropLast member)

theorem take (line : LastOnly bytes) (count : Nat) : LastOnly (bytes.take count) := by
  unfold LastOnly
  rw [List.dropLast_take_eq_take_dropLast]
  exact fun member => line (List.mem_of_mem_take member)

theorem drop (line : LastOnly bytes) (count : Nat) : LastOnly (bytes.drop count) := by
  unfold LastOnly
  rw [List.dropLast_drop_eq_drop_dropLast]
  exact fun member => line (List.mem_of_mem_drop member)

theorem concat_iff (character : UInt8) : LastOnly (bytes ++ [character]) ↔ 10 ∉ bytes := by
  rw [LastOnly, List.dropLast_concat]

theorem getLast? (line : LastOnly bytes) (member : 10 ∈ bytes) : bytes.getLast? = some 10 := by
  cases bytes using List.reverseRecOn with
  | nil => exact absurd member List.not_mem_nil
  | append_singleton rest last _ =>
      rw [concat_iff] at line
      have own := (List.mem_append.1 member).resolve_left line
      rw [List.getLast?_concat, List.mem_singleton.1 own]

end LastOnly

/-- The wait loop sees a full line or enough characters, and a read returns at most one line. -/
structure LineDiscipline (console : Console) : Prop where
  exits : ∀ (index : Fin 3) (numBytes : Int), 0 < numBytes →
    (10 ∈ (console.terminals index).contents ∨
      numBytes ≤ (console.terminals index).charsInBuffer) →
    readWaits (clipLength numBytes) (console.terminals index) = false
  oneLine : ∀ (index : Fin 3) (numBytes : Int), 0 < numBytes →
    ∀ fd bytes tested count buf after,
      terminalRead fd (some bytes) numBytes index console tested console =
        some (count, buf, after) → LastOnly (returnedBytes count buf)

/-- No character is stored behind a newline that still waits. -/
def TypesInLine (state : TypingState) : TypingEvent → Prop
  | .key scancode nextScancode =>
      let terminal := state.machine.console.terminals state.machine.console.activeTerminalIndex
      ∀ character,
        (state.machine.keyboard.update scancode nextScancode).character scancode =
          some character → accepts character terminal = true → 10 ∉ terminal.contents
  | _ => True

section
variable {terminal : Terminal} {numBytes : Int}

/-- A line at the end of the buffer or enough characters end the wait. -/
theorem readWaits_exits (line : LastOnly terminal.contents)
    (ready : 10 ∈ terminal.contents ∨ numBytes ≤ terminal.charsInBuffer) :
    readWaits (clipLength numBytes) terminal = false := by
  unfold readWaits
  rcases ready with member | enough
  · have last := line.getLast? member
    have present := List.length_pos_of_mem member
    rw [Terminal.contents_length] at present
    rw [List.getLast?_eq_getElem?, Terminal.contents_length, List.getElem?_eq_getElem (by
      rw [Terminal.contents_length]
      omega), Terminal.contents_getElem, Option.some_inj] at last
    have newline : terminal.bufferAt (terminal.charsInBuffer - 1) = 10 := by
      rw [Terminal.bufferAt, if_neg (by omega), ← last]
      congr 1
      omega
    rw [newline]
    exact Bool.and_false _
  · have full : ¬(terminal.charsInBuffer : Int) < clipLength numBytes := by
      unfold clipLength
      split <;> omega
    rw [decide_eq_false full]
    rfl

/-- A read returns a beginning of what waits. -/
theorem terminalRead_returns {fd : Fin 8} {bytes : Nat → UInt8} {index : Fin 3}
    {console tested after : Console} {count : Int} {buf : Option (Nat → UInt8)}
    (finished : terminalRead fd (some bytes) numBytes index console tested console =
      some (count, buf, after)) :
    ∃ length, returnedBytes count buf = (console.terminals index).contents.take length := by
  unfold terminalRead at finished
  split at finished
  · cases finished
    exact ⟨0, rfl⟩
  · dsimp only at finished
    split at finished
    · cases finished
    · cases finished
      exact ⟨_, Terminal.returnedBytes_copyInput (readLength_le _ _) bytes⟩

theorem clipLength_pending (bounded : terminal.charsInBuffer ≤ terminalBufferSize) :
    clipLength terminal.charsInBuffer = terminal.charsInBuffer := by
  apply if_neg
  simp only [terminalBufferSize] at bounded ⊢
  omega

theorem readLength_pending (bounded : terminal.charsInBuffer ≤ terminalBufferSize) :
    readLength terminal.charsInBuffer terminal = terminal.charsInBuffer := by
  simp only [terminalBufferSize] at bounded
  unfold readLength
  split <;> omega

/-- A read of as many bytes as wait returns all of them. -/
theorem terminalRead_all (index : Fin 3) (console : Console) (bytes : Nat → UInt8)
    (bounded : (console.terminals index).charsInBuffer ≤ terminalBufferSize) :
    ∃ count buf after, terminalRead 0 (some bytes) (console.terminals index).charsInBuffer index
        console console console = some (count, buf, after) ∧
      returnedBytes count buf = (console.terminals index).contents := by
  have passes : readWaits (console.terminals index).charsInBuffer (console.terminals index) =
      false := by
    rw [readWaits, decide_eq_false (lt_irrefl _)]
    rfl
  have returned := Terminal.returnedBytes_copyInput
    (Nat.le_refl (console.terminals index).charsInBuffer) bytes
  rw [List.take_of_length_le (Nat.le_of_eq (Terminal.contents_length _))] at returned
  unfold terminalRead readCritical
  dsimp only
  rw [if_neg (by decide), clipLength_pending bounded, passes, readLength_pending bounded]
  exact ⟨_, _, _, rfl, returned⟩

end

/-- The line discipline holds exactly while every newline is at the end of its buffer. -/
theorem lineDiscipline_iff_lastOnly {console : Console}
    (bounded : ∀ index, (console.terminals index).charsInBuffer ≤ terminalBufferSize) :
    LineDiscipline console ↔ ∀ index, LastOnly (console.terminals index).contents := by
  constructor
  · intro discipline index
    obtain ⟨count, buf, after, finished, all⟩ :=
      terminalRead_all index console (fun _ => 0) (bounded index)
    by_cases empty : (console.terminals index).charsInBuffer = 0
    · have nothing : (console.terminals index).contents = [] := by
        rw [← List.length_eq_zero_iff, Terminal.contents_length, empty]
      rw [nothing]
      exact List.not_mem_nil
    · rw [← all]
      exact discipline.oneLine index _ (by omega) 0 _ console count buf after finished
  · intro lines
    constructor
    · exact fun index numBytes _ ready => readWaits_exits (lines index) ready
    · intro index numBytes _ fd bytes tested count buf after finished
      obtain ⟨length, returned⟩ := terminalRead_returns finished
      rw [returned]
      exact (lines index).take length

namespace InputLog

/-- The characters that no reader has got. -/
def unread (log : InputLog) : List UInt8 := log.typed.drop log.delivered.length

theorem unread_type {log : InputLog} (delivered : log.delivered.length ≤ log.typed.length)
    (character : UInt8) :
    (log.type character).unread =
      if log.accepts character then log.unread ++ [character] else log.unread := by
  unfold type
  split
  · exact List.drop_append_of_le_length delivered
  · rfl

theorem unread_deliver (log : InputLog) (bytes : List UInt8) :
    (log.deliver bytes).unread = log.unread.drop bytes.length := by
  rw [unread, unread, List.drop_drop, ← List.length_append]
  rfl

theorem lastOnly_backspace {log : InputLog} (line : LastOnly log.unread) :
    LastOnly log.backspace.unread := by
  unfold backspace
  split
  · exact line
  · unfold unread
    rw [← List.dropLast_drop_eq_drop_dropLast]
    exact line.dropLast

end InputLog

section
variable {terminal : Terminal} {log : InputLog}

theorem Recorded.contents (recorded : Recorded terminal log) : terminal.contents = log.unread := by
  rw [InputLog.unread, ← recorded.content, List.drop_left]

theorem Recorded.delivered (recorded : Recorded terminal log) :
    log.delivered.length ≤ log.typed.length := by
  rw [← recorded.content, List.length_append]
  exact Nat.le_add_right ..

end

/-- The unread characters of every terminal end with their only newline. -/
def LinesEnd (logs : Fin 3 → InputLog) : Prop := ∀ index, LastOnly (logs index).unread

namespace LinesEnd
variable {logs : Fin 3 → InputLog}

theorem update_iff (lines : LinesEnd logs) (index : Fin 3) (log : InputLog) :
    LinesEnd (Function.update logs index log) ↔ LastOnly log.unread := by
  constructor
  · intro updated
    have own := updated index
    rwa [Function.update_self] at own
  · intro own other
    rw [Function.update_apply]
    split
    · exact own
    · exact lines other

/-- A key keeps the lines exactly when it does not store behind a newline. -/
theorem press_iff {console : Console} (lines : LinesEnd logs) (recorded : AllRecorded console logs)
    (index : Fin 3) (scancode nextScancode : UInt8) (keyboard : Keyboard) :
    LinesEnd (Function.update logs index
        ((logs index).press scancode nextScancode keyboard)) ↔
      ∀ character,
        (keyboard.update scancode nextScancode).character scancode = some character →
          accepts character (console.terminals index) = true →
            10 ∉ (console.terminals index).contents := by
  rw [lines.update_iff, InputLog.press]
  by_cases erases : scancode = 0x0E
  · rw [if_pos erases]
    refine iff_of_true (InputLog.lastOnly_backspace (lines index)) fun character yields => ?_
    rw [Keyboard.character, if_pos (.inr (.inl (by rw [erases, pressed_backspace])))] at yields
    cases yields
  · rw [if_neg erases]
    cases yields : (keyboard.update scancode nextScancode).character scancode with
    | none =>
        exact iff_of_true (lines index) fun _ impossible => by cases impossible
    | some character =>
        dsimp only
        rw [InputLog.unread_type (recorded index).delivered, (recorded index).contents,
          ← (recorded index).accepts]
        constructor
        · intro line other same room
          cases same
          rw [if_pos room] at line
          exact (LastOnly.concat_iff character).1 line
        · intro stores
          split
          · next room => exact (LastOnly.concat_iff character).2 (stores character rfl room)
          · exact lines index

end LinesEnd

/-- A key that yields a character always completes. -/
theorem handleKeypress_completes (fs : FileSystem) {scancode nextScancode character : UInt8}
    {machine : Machine}
    (yields : (machine.keyboard.update scancode nextScancode).character scancode =
      some character) : ∃ after, handleKeypress fs scancode nextScancode machine = .ok after := by
  unfold Keyboard.character at yields
  split at yields
  · cases yields
  · next plain =>
    simp only [not_or, Bool.not_eq_true] at plain
    obtain ⟨low, visible, noAlt, noCtrl⟩ := plain
    unfold handleKeypress
    simp only [if_neg low, noAlt, noCtrl, visible, Bool.false_and, Bool.false_eq_true, if_false,
      or_self]
    cases altTarget scancode <;> exact ⟨_, rfl⟩

/-- One step keeps the lines exactly when it types in line. -/
theorem typesInLine_iff {fs : FileSystem} {state : TypingState} (event : TypingEvent)
    (recorded : AllRecorded state.machine.console state.logs) (lines : LinesEnd state.logs) :
    TypesInLine state event ↔
      ∀ next, typingStep fs state event = .ok next → LinesEnd next.logs := by
  cases event with
  | key scancode nextScancode =>
      have exact := lines.press_iff recorded state.machine.console.activeTerminalIndex scancode
        nextScancode state.machine.keyboard
      constructor
      · intro types next stepped
        obtain ⟨after, _, rfl⟩ := map_ok stepped
        exact exact.2 types
      · intro kept character yields
        obtain ⟨after, finished⟩ := handleKeypress_completes fs yields
        have stepped : typingStep fs state (.key scancode nextScancode) = .ok _ :=
          congrArg (Except.map _) finished
        exact exact.1 (kept _ stepped) character yields
  | read fd buffer numBytes index tested =>
      refine iff_of_true trivial fun next stepped => ?_
      unfold typingStep at stepped
      dsimp only at stepped
      split at stepped
      · cases stepped
      · next count bytes console finished =>
        cases stepped
        rw [lines.update_iff, InputLog.unread_deliver]
        exact (lines index).drop _
  | write fd buffer characters index =>
      refine iff_of_true trivial fun next stepped => ?_
      cases stepped
      exact lines
  | switch target =>
      refine iff_of_true trivial fun next stepped => ?_
      obtain ⟨after, _, rfl⟩ := map_ok stepped
      exact lines
  | processes active activeProcess =>
      refine iff_of_true trivial fun next stepped => ?_
      cases stepped
      exact lines

/-- The recorded buffers follow the line discipline exactly when their lines end. -/
theorem AllRecorded.lineDiscipline_iff {console : Console} {logs : Fin 3 → InputLog}
    (recorded : AllRecorded console logs) : LineDiscipline console ↔ LinesEnd logs := by
  rw [lineDiscipline_iff_lastOnly fun index => (recorded index).bounded]
  apply forall_congr'
  intro index
  rw [(recorded index).contents]

/-- The line discipline holds in every state of a run exactly when the run types in line. -/
theorem lineDiscipline_always_iff (fs : FileSystem) (machine : Machine)
    (events : List TypingEvent) :
    Always (fun state : TypingState => LineDiscipline state.machine.console) (typingStep fs)
        (freshTyping machine) events ↔
      Along TypesInLine (typingStep fs) (freshTyping machine) events := by
  have fresh := allRecorded_freshTyping machine
  apply always_iff_along (fun state : TypingState => AllRecorded state.machine.console state.logs)
  · exact fun state event next recorded stepped => recorded.step stepped
  · intro state event recorded discipline
    rw [typesInLine_iff event recorded (recorded.lineDiscipline_iff.1 discipline)]
    constructor
    · intro kept next stepped
      exact (recorded.step stepped).lineDiscipline_iff.2 (kept next stepped)
    · intro kept next stepped
      exact (recorded.step stepped).lineDiscipline_iff.1 (kept next stepped)
  · exact fresh
  · exact fresh.lineDiscipline_iff.2 fun _ => List.not_mem_nil

/-- A letter, a newline, and a letter, all typed before a read. -/
def aheadEvents : List TypingEvent := [.key 0x1E 0, .key 0x1C 0, .key 0x30 0]

/-- A reader waits although a line is in the buffer, and one read returns two lines. -/
theorem lineDiscipline_ahead_fails :
    (∃ final, run (typingStep shellImage) (freshTyping coldMachine) aheadEvents = .ok final ∧
      10 ∈ (final.machine.console.terminals 0).contents ∧
      readWaits (clipLength 10) (final.machine.console.terminals 0) = true ∧
      ¬LineDiscipline final.machine.console) ∧
    ∃ final count buf after,
      run (typingStep shellImage) (freshTyping coldMachine)
        (aheadEvents ++ [.key 0x1C 0]) = .ok final ∧
      terminalRead 0 (some fun _ => 0) 128 0 final.machine.console final.machine.console
        final.machine.console = some (count, buf, after) ∧
      returnedBytes count buf = [97, 10, 98, 10] := by
  constructor
  · have passed : runCheck (typingStep shellImage) (freshTyping coldMachine) aheadEvents
        (fun final => decide (10 ∈ (final.machine.console.terminals 0).contents) &&
          readWaits (clipLength 10) (final.machine.console.terminals 0)) = true := by
      decide +kernel
    obtain ⟨final, reached, checked⟩ := runCheck_sound passed
    rw [Bool.and_eq_true, decide_eq_true_eq] at checked
    refine ⟨final, reached, checked.1, checked.2, fun discipline => ?_⟩
    have exits := discipline.exits 0 10 (by decide) (.inl checked.1)
    rw [checked.2] at exits
    cases exits
  · have passed : runCheck (typingStep shellImage) (freshTyping coldMachine)
        (aheadEvents ++ [.key 0x1C 0]) (fun final =>
          (terminalRead 0 (some fun _ => 0) 128 0 final.machine.console final.machine.console
            final.machine.console).map (fun read => returnedBytes read.1 read.2.1) ==
              some [97, 10, 98, 10]) = true := by
      decide +kernel
    obtain ⟨final, reached, checked⟩ := runCheck_sound passed
    rw [beq_iff_eq, Option.map_eq_some_iff] at checked
    obtain ⟨⟨count, buf, after⟩, finished, returned⟩ := checked
    exact ⟨final, count, buf, after, reached, finished, returned⟩

end ComputerSystems.Kernel
