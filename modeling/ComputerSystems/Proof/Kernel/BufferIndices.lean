import ComputerSystems.Construction.Kernel.BufferAccess
import ComputerSystems.Proof.Kernel.KeyboardQueue

namespace ComputerSystems.Kernel
open ComputerSystems.Library

/-- The indices of the buffer of a terminal. -/
def bufferRange : Set Int := {index | 0 ≤ index ∧ index < terminalBufferSize}

instance (index : Int) : Decidable (index ∈ bufferRange) :=
  inferInstanceAs (Decidable (0 ≤ index ∧ index < terminalBufferSize))

/-- All accesses so far used an index of the buffer. -/
def InRange (touched : List Int) : Prop := ∀ index ∈ touched, index ∈ bufferRange

instance (touched : List Int) : Decidable (InRange touched) :=
  inferInstanceAs (Decidable (∀ index ∈ touched, index ∈ bufferRange))

theorem inRange_nil : InRange [] := fun _ member => by cases member

theorem inRange_cons {index : Int} {touched : List Int} :
    InRange (index :: touched) ↔ index ∈ bufferRange ∧ InRange touched :=
  List.forall_mem_cons

theorem InRange.confined {before after : Logged Int UInt8} (inRange : InRange before.touched)
    (confined : Confined bufferRange before after) : InRange after.touched := by
  intro index member
  rcases confined.touched index member with earlier | inside
  · exact inRange index earlier
  · exact inside

theorem mem_bufferRange {position : Nat} :
    (position : Int) ∈ bufferRange ↔ position < terminalBufferSize := by
  unfold bufferRange
  rw [Set.mem_ofPred_eq]
  omega

namespace Terminal
variable (terminal : Terminal) (touched : List Int)

@[simp] theorem bufferAt_natCast (position : Nat) :
    terminal.bufferAt position = terminal.buffer position := by
  unfold bufferAt
  rw [if_neg (by omega), Int.toNat_natCast]

@[simp] theorem logged_memory_natCast (position : Nat) :
    (terminal.logged touched).memory position = terminal.buffer position :=
  terminal.bufferAt_natCast position

/-- A store in the log is a store in the buffer. -/
theorem logged_store_natCast (place position : Nat) (value : UInt8) :
    ((terminal.logged touched).store (place : Int) value).memory position =
      Function.update terminal.buffer place value position := by
  change Function.update terminal.bufferAt place value position = _
  rw [Function.update_apply, Function.update_apply, bufferAt_natCast]
  simp only [Nat.cast_inj]

end Terminal

section
variable (terminal : Terminal) (touched : List Int)

/-- The logged backspace stores what `dropLast` stores. -/
theorem eraseBuffer_memory (position : Nat) :
    (eraseBuffer terminal (terminal.logged touched)).memory position =
      if terminal.charsInBuffer = 0 then terminal.buffer position
      else (dropLast terminal).buffer position := by
  unfold eraseBuffer
  split_ifs with empty
  · exact terminal.logged_memory_natCast touched position
  · rw [← Nat.cast_pred (Nat.pos_of_ne_zero empty)]
    exact terminal.logged_store_natCast touched _ position 0

theorem typeBuffer_memory (pressed : UInt8) (position : Nat) :
    (typeBuffer pressed terminal (terminal.logged touched)).memory position =
      if accepts pressed terminal then (storeCharacter pressed terminal).buffer position
      else terminal.buffer position := by
  unfold typeBuffer
  split_ifs with room
  · exact terminal.logged_store_natCast touched _ position pressed
  · exact terminal.logged_memory_natCast touched position

/-- The logged copy loop loads what `copyInput` stores. -/
theorem copyBuffer_eq (length : Nat) (bytes : Nat → UInt8) :
    (copyBuffer length bytes (terminal.logged touched)).1 = copyInput length terminal bytes ∧
      (copyBuffer length bytes (terminal.logged touched)).2.memory = terminal.bufferAt := by
  unfold copyBuffer copyInput
  apply forLoop_relates fun (left : (Nat → UInt8) × Logged Int UInt8) right =>
    left.1 = right ∧ left.2.memory = terminal.bufferAt
  · exact ⟨rfl, rfl⟩
  · rintro done left right early ⟨same, kept⟩
    refine ⟨?_, kept⟩
    change Function.update left.1 _ (left.2.memory _) = _
    rw [same, kept, terminal.bufferAt_natCast]

/-- The logged shift loop moves what `takeInput` moves. -/
theorem shiftBuffer_memory {logged : Logged Int UInt8}
    (same : ∀ position : Nat, logged.memory position = terminal.buffer position)
    (length position : Nat) :
    (shiftBuffer length logged).memory position = (takeInput length terminal).buffer position := by
  revert position
  unfold shiftBuffer takeInput
  apply forLoop_relates fun (left : Logged Int UInt8) (right : Nat → UInt8) =>
    ∀ position : Nat, left.memory position = right position
  · exact same
  · intro done left right early before position
    change Function.update left.memory _ (left.memory _) _ = _
    rw [Function.update_apply, Function.update_apply, before, before]
    simp only [Nat.cast_inj]

end

section
variable {scancode nextScancode : UInt8} {keyboard : Keyboard} {terminal : Terminal}
variable {logged : Logged Int UInt8}

theorem keypressBuffer_backspace : keypressBuffer 0x0E nextScancode keyboard terminal logged =
    eraseBuffer terminal logged := by
  simp [keypressBuffer, pressed_backspace]

/-- A key other than backspace touches the buffer when it yields a character. -/
theorem keypressBuffer_of_ne (other : scancode ≠ 0x0E) :
    keypressBuffer scancode nextScancode keyboard terminal logged =
      match (keyboard.update scancode nextScancode).character scancode with
      | none => logged
      | some pressed => typeBuffer pressed terminal logged := by
  unfold keypressBuffer Keyboard.character
  dsimp only
  rw [if_neg other]
  by_cases high : scancode > 0x3F
  · rw [if_pos high, if_pos (.inl high)]
  · rw [if_neg high]
    split
    · next silent => rw [if_pos (.inr silent)]
    · next loud => rw [if_neg (not_or.2 ⟨high, loud⟩)]

end

/-- A backspace drops the last character of the active terminal alone. -/
theorem backspace_buffer (console : Console) (index : Fin 3) :
    ((backspace console).terminals index).buffer =
      if index = console.activeTerminalIndex ∧ (console.terminals index).charsInBuffer ≠ 0 then
        (dropLast (console.terminals index)).buffer
      else (console.terminals index).buffer := by
  by_cases empty : (console.terminals console.activeTerminalIndex).charsInBuffer = 0
  · rw [backspace_empty empty, if_neg]
    rintro ⟨rfl, waiting⟩
    exact waiting empty
  · obtain ⟨posX, posY, terminals⟩ := backspace_terminals empty
    rw [terminals]
    by_cases own : index = console.activeTerminalIndex
    · subst own
      rw [Console.setTerminal_self, if_pos ⟨rfl, empty⟩]
    · rw [Console.setTerminal_of_ne _ own, if_neg fun both => own both.1]

theorem typeCharacter_buffer (pressed : UInt8) (console : Console) (index : Fin 3) :
    ((typeCharacter pressed console).terminals index).buffer =
      if index = console.activeTerminalIndex ∧ accepts pressed (console.terminals index) then
        (storeCharacter pressed (console.terminals index)).buffer
      else (console.terminals index).buffer := by
  cases room : accepts pressed (console.terminals console.activeTerminalIndex) with
  | false =>
      rw [typeCharacter_refused room, if_neg]
      rintro ⟨rfl, accepted⟩
      exact Bool.false_ne_true (room.symm.trans accepted)
  | true =>
      obtain ⟨posX, posY, terminals⟩ := typeCharacter_terminals room
      rw [terminals]
      by_cases own : index = console.activeTerminalIndex
      · subst own
        rw [Console.setTerminal_self, if_pos ⟨rfl, room⟩]
      · rw [Console.setTerminal_of_ne _ own, if_neg fun both => own both.1]

/-- The logged accesses of a key press are those of the buffers. -/
theorem keypressBuffer_memory {fs : FileSystem} {scancode nextScancode : UInt8}
    {machine after : Machine} (touched : List Int)
    (finished : handleKeypress fs scancode nextScancode machine = .ok after) (index : Fin 3)
    (position : Nat) :
    (after.console.terminals index).buffer position =
      if index = machine.console.activeTerminalIndex then
        (keypressBuffer scancode nextScancode machine.keyboard (machine.console.terminals index)
          ((machine.console.terminals index).logged touched)).memory position
      else (machine.console.terminals index).buffer position := by
  by_cases key : scancode = 0x0E
  · subst key
    rw [handleKeypress_backspace finished, backspace_buffer, keypressBuffer_backspace,
      eraseBuffer_memory]
    split_ifs <;> simp_all
  · rw [keypressBuffer_of_ne key]
    cases yields : (machine.keyboard.update scancode nextScancode).character scancode with
    | none =>
        rw [(handleKeypress_none key yields finished index).1]
        simp
    | some pressed =>
        rw [handleKeypress_some key yields finished, typeCharacter_buffer]
        dsimp only
        rw [typeBuffer_memory]
        split_ifs <;> simp_all

/-- One uninterrupted round of the wait loop goes on as `readWaits` says. -/
theorem advanceRead_round {pid : Nat} {state : ReadingState} {call : ReadRequest}
    (comparing : state.points pid = .comparing call) :
    let terminal := state.machine.console.terminals call.index
    let waits := readWaits (clipLength call.numBytes) terminal
    ∃ compared, advanceRead pid state = .ok compared ∧ compared.machine = state.machine ∧
      (compared.points pid = .leaving call ∧ waits = false ∨
        compared.points pid = .testing call ∧ ∃ tested, advanceRead pid compared = .ok tested ∧
          tested.machine = state.machine ∧
            tested.points pid = if waits then .comparing call else .leaving call) := by
  intro terminal waits
  unfold advanceRead
  rw [comparing]
  refine ⟨_, rfl, rfl, ?_⟩
  dsimp only
  rw [Function.update_self]
  by_cases fewer : (terminal.charsInBuffer : Int) < clipLength call.numBytes
  · right
    rw [if_pos fewer]
    refine ⟨rfl, _, rfl, rfl, ?_⟩
    dsimp only
    rw [Function.update_self]
    by_cases feed : terminal.bufferAt (terminal.charsInBuffer - 1) = 10
    · simp_all [waits, readWaits, terminal, Logged.load, Terminal.logged]
    · simp_all [waits, readWaits, terminal, Logged.load, Terminal.logged]
  · left
    rw [if_neg fewer]
    refine ⟨rfl, ?_⟩
    simp_all [waits, readWaits, terminal]

section
variable {terminal : Terminal} {length : Nat}

/-- A key press keeps to the buffer when at most 128 characters are in it. -/
theorem keypressBuffer_confined (bounded : terminal.charsInBuffer ≤ terminalBufferSize)
    (scancode nextScancode : UInt8) (keyboard : Keyboard) (logged : Logged Int UInt8) :
    Confined bufferRange logged
      (keypressBuffer scancode nextScancode keyboard terminal logged) := by
  by_cases key : scancode = 0x0E
  · subst key
    rw [keypressBuffer_backspace]
    unfold eraseBuffer
    split
    · exact .refl bufferRange logged
    · next waiting =>
      apply Confined.store
      rw [← Nat.cast_pred (Nat.pos_of_ne_zero waiting), mem_bufferRange]
      omega
  · rw [keypressBuffer_of_ne key]
    split
    · exact .refl bufferRange logged
    · next pressed yields =>
      unfold typeBuffer
      split
      · next room =>
        apply Confined.store
        rw [mem_bufferRange]
        unfold accepts at room
        simp only [Bool.or_eq_true, Bool.and_eq_true, decide_eq_true_eq,
          terminalBufferSize] at room ⊢
        omega
      · exact .refl bufferRange logged

theorem copyBuffer_confined (bounded : length ≤ terminalBufferSize) (bytes : Nat → UInt8)
    (logged : Logged Int UInt8) :
    Confined bufferRange logged (copyBuffer length bytes logged).2 := by
  apply forLoop_rule fun _ (current : (Nat → UInt8) × Logged Int UInt8) =>
    Confined bufferRange logged current.2
  · exact .refl bufferRange logged
  · intro done current early before
    apply before.trans
    exact .load (mem_bufferRange.2 (by omega)) current.2

/-- The shift loop loads from the rest of the buffer and stores to its front. -/
theorem shiftBuffer_confined (length : Nat) (logged : Logged Int UInt8) :
    Confined bufferRange logged (shiftBuffer length logged) := by
  apply Confined.forLoop
  intro position current _ early
  exact .move (mem_bufferRange.2 (by omega)) (mem_bufferRange.2 (by omega)) current

end

/-- The buffers hold what was typed. -/
def ReadingState.Recorded (state : ReadingState) : Prop :=
  ∃ logs, AllRecorded state.machine.console logs

theorem ReadingState.Recorded.bounded {state : ReadingState} (recorded : state.Recorded)
    (index : Fin 3) :
    (state.machine.console.terminals index).charsInBuffer ≤ terminalBufferSize := by
  obtain ⟨logs, all⟩ := recorded
  exact (all index).bounded

theorem recorded_freshReading (machine : Machine) : (freshReading machine).Recorded :=
  ⟨(freshTyping machine).logs, allRecorded_freshTyping machine⟩

/-- A step of a reader takes at most what waits. -/
theorem ReadingState.Recorded.advance {state next : ReadingState} {pid : Nat}
    (recorded : state.Recorded) (stepped : advanceRead pid state = .ok next) : next.Recorded := by
  obtain ⟨logs, all⟩ := recorded
  unfold advanceRead at stepped
  split at stepped
  · cases stepped
    exact ⟨logs, all⟩
  · cases stepped
    exact ⟨logs, all⟩
  · next call leaving =>
    cases stepped
    have read := (all call.index).read (clipLength call.numBytes) call.bytes
    exact ⟨_, all.update read⟩
  · cases stepped

theorem ReadingState.Recorded.step {fs : FileSystem} {state next : ReadingState}
    {event : ReadingEvent} (recorded : state.Recorded)
    (stepped : readingStep fs state event = .ok next) : next.Recorded := by
  obtain ⟨logs, all⟩ := recorded
  cases event with
  | key scancode nextScancode =>
      obtain ⟨final, pressed, rfl⟩ := map_ok stepped
      exact ⟨_, all.press pressed⟩
  | call pid fd buffer numBytes index =>
      unfold readingStep at stepped
      dsimp only at stepped
      split at stepped
      · cases stepped
        exact ⟨logs, all⟩
      · cases stepped
  | advance pid => exact ReadingState.Recorded.advance ⟨logs, all⟩ stepped
  | write fd buffer characters index =>
      cases stepped
      exact ⟨logs, all.keep (sameInput_terminalWrite fd buffer characters index _)⟩
  | switch target =>
      obtain ⟨final, switched, rfl⟩ := map_ok stepped
      exact ⟨logs, all.keep (sameInput_switchTerminal switched)⟩
  | processes active activeProcess =>
      cases stepped
      exact ⟨logs, all.keep (sameInput_refl state.machine.console)⟩

/-- A process is about to test the last character of an empty buffer. -/
def TestsEmpty (state : ReadingState) : ReadingEvent → Prop
  | .advance pid => ∃ call, state.points pid = .testing call ∧
      (state.machine.console.terminals call.index).charsInBuffer = 0
  | _ => False

/-- A step of a reader leaves the buffer at the test of an empty one and nowhere else. -/
theorem advanceRead_touched {state next : ReadingState} {pid : Nat} (recorded : state.Recorded)
    (inRange : InRange state.touched) (stepped : advanceRead pid state = .ok next) :
    InRange next.touched ↔ ¬TestsEmpty state (.advance pid) := by
  unfold advanceRead at stepped
  unfold TestsEmpty
  split at stepped
  · next call comparing =>
    cases stepped
    simp [comparing, inRange]
  · next call testing =>
    cases stepped
    have bound := recorded.bounded call.index
    simp only [testing, ReadPoint.testing.injEq, exists_eq_left']
    change InRange (_ :: state.touched) ↔ _
    rw [inRange_cons, and_iff_left inRange]
    unfold bufferRange
    rw [Set.mem_ofPred_eq]
    omega
  · next call leaving =>
    cases stepped
    simp only [leaving, reduceCtorEq, false_and, exists_false, not_false_iff, iff_true]
    have short := (readLength_le (clipLength call.numBytes) _).trans (recorded.bounded call.index)
    have copied := copyBuffer_confined short call.bytes
      ((state.machine.console.terminals call.index).logged state.touched)
    exact InRange.confined inRange (copied.trans (shiftBuffer_confined _ _))
  · cases stepped

theorem readingStep_touched {fs : FileSystem} {state next : ReadingState} {event : ReadingEvent}
    (recorded : state.Recorded) (inRange : InRange state.touched)
    (stepped : readingStep fs state event = .ok next) :
    InRange next.touched ↔ ¬TestsEmpty state event := by
  cases event with
  | key scancode nextScancode =>
      obtain ⟨final, pressed, rfl⟩ := map_ok stepped
      have bound := recorded.bounded state.machine.console.activeTerminalIndex
      apply iff_of_true _ id
      apply InRange.confined _ (keypressBuffer_confined bound scancode nextScancode
        state.machine.keyboard _)
      exact inRange
  | call pid fd buffer numBytes index =>
      unfold readingStep at stepped
      dsimp only at stepped
      split at stepped
      · cases stepped
        exact iff_of_true inRange id
      · cases stepped
  | advance pid => exact advanceRead_touched recorded inRange stepped
  | write fd buffer characters index =>
      cases stepped
      exact iff_of_true inRange id
  | switch target =>
      obtain ⟨final, switched, rfl⟩ := map_ok stepped
      exact iff_of_true inRange id
  | processes active activeProcess =>
      cases stepped
      exact iff_of_true inRange id

/-- The test itself always runs. -/
theorem TestsEmpty.runs {state : ReadingState} {event : ReadingEvent}
    (empty : TestsEmpty state event) (fs : FileSystem) :
    ∃ next, readingStep fs state event = .ok next := by
  cases event with
  | advance pid =>
      obtain ⟨call, testing, _⟩ := empty
      unfold readingStep advanceRead
      dsimp only
      rw [testing]
      exact ⟨_, rfl⟩
  | _ => cases empty

/-- In every run all accesses to the buffers use an index of the buffer if and only if no process
tests the last character of an empty buffer. -/
theorem bufferIndices_inRange_iff (fs : FileSystem) (machine : Machine)
    (events : List ReadingEvent) :
    Always (fun state => InRange state.touched) (readingStep fs) (freshReading machine) events ↔
      Along (fun state event => ¬TestsEmpty state event) (readingStep fs) (freshReading machine)
        events := by
  apply always_iff_along ReadingState.Recorded
  · exact fun state event next recorded stepped => recorded.step stepped
  · intro state event recorded inRange
    constructor
    · exact fun filled next stepped => (readingStep_touched recorded inRange stepped).2 filled
    · intro all empty
      obtain ⟨next, stepped⟩ := empty.runs fs
      exact (readingStep_touched recorded inRange stepped).1 (all next stepped) empty
  · exact recorded_freshReading machine
  · exact inRange_nil

/-- A read of an empty buffer tests the byte in front of it. -/
theorem bufferIndices_empty_read : ¬Always (fun state => InRange state.touched)
    (readingStep shellImage) (freshReading coldMachine)
    [.call 0 0 (some fun _ => 0) 128 0, .advance 0, .advance 0] :=
  not_always_of_runCheck (by decide +kernel)

end ComputerSystems.Kernel
