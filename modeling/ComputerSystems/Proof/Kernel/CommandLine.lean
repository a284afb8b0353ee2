import ComputerSystems.Proof.Kernel.ContextSwitch
import ComputerSystems.Proof.Kernel.DirectoryNames

namespace ComputerSystems.Kernel
open ComputerSystems.Library

namespace CString

/-- The longest prefix of a command without a space. -/
def word (command : CString) : List UInt8 := command.bytes.takeWhile (· != 32)

/-- The rest of a command after its word without the spaces in front. -/
def argument (command : CString) : List UInt8 :=
  (command.bytes.drop command.word.length).dropWhile (· == 32)

/-- A command is its word, and a space follows the word unless the command ends there. -/
theorem word_split (command : CString) : ∃ rest, command.bytes = command.word ++ rest ∧
    (rest = [] ∨ ∃ tail, rest = 32 :: tail) := by
  refine ⟨command.bytes.dropWhile (· != 32), List.takeWhile_append_dropWhile.symm, ?_⟩
  cases shape : command.bytes.dropWhile (· != 32) with
  | nil => exact .inl rfl
  | cons first tail =>
      have stopped := List.dropWhile_get_zero_not (· != 32) command.bytes (by simp [shape])
      simp only [shape, List.get_eq_getElem, List.getElem_cons_zero, bne_iff_ne, ne_eq,
        not_not] at stopped
      exact .inr ⟨tail, by rw [stopped]⟩

theorem word_length_le (command : CString) : command.word.length ≤ command.bytes.length :=
  (List.takeWhile_prefix _).length_le

theorem get_word (command : CString) {index : Nat} (inside : index < command.word.length) :
    command.get index = command.word[index] := by
  obtain ⟨rest, split, _⟩ := command.word_split
  rw [get, split, List.getD_append _ _ _ _ inside, List.getD_eq_getElem _ _ inside]

theorem get_word_ne (command : CString) {index : Nat} (inside : index < command.word.length) :
    command.get index ≠ 32 ∧ command.get index ≠ 0 := by
  rw [command.get_word inside]
  have member := List.getElem_mem inside
  have running := List.mem_takeWhile_imp member
  refine ⟨by simpa using running, fun ended => command.noTerminator ?_⟩
  rw [← ended]
  exact List.takeWhile_subset _ member

/-- The byte after the word is a space or the terminator. -/
theorem get_word_end (command : CString) : command.get command.word.length =
    if command.word.length < command.bytes.length then 32 else 0 := by
  obtain ⟨rest, split, rfl | ⟨tail, rfl⟩⟩ := command.word_split
  · rw [List.append_nil] at split
    rw [if_neg (by rw [← split]; exact Nat.lt_irrefl _), get,
      List.getD_eq_default _ _ (Nat.le_of_eq (congrArg List.length split))]
  · rw [if_pos (by rw [split, List.length_append, List.length_cons]; omega), get, split,
      List.getD_append_right _ _ _ _ (Nat.le_refl _), Nat.sub_self, List.getD_cons_zero]

end CString

/-- The scan for the name stops after the word, or after 32 bytes. -/
theorem takeFilename_eq (command : CString) (remaining index : Nat) (filename : Nat → UInt8)
    (before : index ≤ command.word.length)
    (stored : ∀ place, filename place = if place < index then command.get place else 0) :
    (takeFilename command remaining index filename).1 =
        (if command.word.length < index + remaining then
          (if command.word.length < command.bytes.length then command.word.length + 1
            else command.word.length)
        else index + remaining) ∧
      ∀ place, (takeFilename command remaining index filename).2 place =
        if place < min command.word.length (index + remaining) then command.get place else 0 := by
  induction remaining generalizing index filename with
  | zero =>
      rw [takeFilename, Nat.add_zero, if_neg (by omega)]
      refine ⟨rfl, fun place => ?_⟩
      rw [Nat.min_eq_right before]
      exact stored place
  | succ remaining ih =>
      have last := command.get_word_end
      rw [takeFilename]
      by_cases inside : index < command.word.length
      · obtain ⟨space, terminator⟩ := command.get_word_ne inside
        rw [if_neg space]
        dsimp only
        rw [if_neg terminator, show index + (remaining + 1) = index + 1 + remaining by omega]
        apply ih (index + 1) _ inside
        intro place
        rw [Function.update_apply, stored place]
        by_cases here : place = index
        · rw [if_pos here, if_pos (by omega), here]
        · simp only [if_neg here, show place < index + 1 ↔ place < index by omega]
      · obtain rfl : index = command.word.length := by omega
        have early : command.word.length < command.word.length + (remaining + 1) := by omega
        rw [Nat.min_eq_left (Nat.le_of_lt early), if_pos early]
        have overwritten (place : Nat) :
            Function.update filename command.word.length 0 place =
              if place < command.word.length then command.get place else 0 := by
          rw [Function.update_apply, stored place]
          split_ifs <;> first | rfl | omega
        by_cases more : command.word.length < command.bytes.length
        · rw [if_pos more] at last ⊢
          rw [if_pos last]
          exact ⟨rfl, overwritten⟩
        · rw [if_neg more] at last ⊢
          rw [last, if_neg (by decide)]
          exact ⟨rfl, overwritten⟩

/-- The loop over the spaces stops at the first other byte. -/
theorem skipSpaces_drop (command : CString) (index : Nat) (inside : index ≤ command.bytes.length) :
    skipSpaces command index ≤ command.bytes.length ∧
      command.bytes.drop (skipSpaces command index) =
        (command.bytes.drop index).dropWhile (· == 32) := by
  have skipped := whileLoop_rule (fun index => command.get index == 32) (· + 1)
    (fun current => current ≤ command.bytes.length ∧
      (command.bytes.drop current).dropWhile (· == 32) =
        (command.bytes.drop index).dropWhile (· == 32))
    (fun current => command.bytes.length - current)
    (by
      intro current known running
      rw [beq_iff_eq] at running
      have more : current < command.bytes.length := by
        by_contra ended
        rw [CString.get, List.getD_eq_default _ _ (Nat.le_of_not_lt ended)] at running
        exact absurd running (by decide)
      rw [CString.get, List.getD_eq_getElem _ _ more] at running
      refine ⟨⟨more, ?_⟩, by omega⟩
      rw [← known.2, List.drop_eq_getElem_cons more,
        List.dropWhile_cons_of_pos (by simp [running])])
    command.bytes.length index ⟨inside, rfl⟩ (Nat.sub_le ..)
  obtain ⟨⟨bound, same⟩, stopped⟩ := skipped
  rw [← skipSpaces] at bound same stopped
  refine ⟨bound, ?_⟩
  rw [← same]
  by_cases more : skipSpaces command index < command.bytes.length
  · rw [CString.get, List.getD_eq_getElem _ _ more] at stopped
    rw [List.drop_eq_getElem_cons more, List.dropWhile_cons_of_neg (by simpa using stopped)]
  · rw [List.drop_eq_nil_of_le (Nat.le_of_not_lt more), List.dropWhile_nil]

/-- The copy of an argument that fits stores it with its terminator. -/
theorem takeArgument_eq (command : CString) (remaining index position : Nat) (pcb : Pcb)
    (room : command.bytes.length - index < remaining)
    (noNewline : 10 ∉ command.bytes) :
    takeArgument command remaining index position pcb =
      { pcb with
        arg := fun place =>
          if position ≤ place ∧ place ≤ position + (command.bytes.length - index) then
            command.get (index + (place - position))
          else pcb.arg place
        numCharInArg := position + (command.bytes.length - index) + 1 } := by
  induction remaining generalizing index position pcb with
  | zero => exact absurd room (Nat.not_lt_zero _)
  | succ remaining ih =>
      rw [takeArgument]
      by_cases more : index < command.bytes.length
      · have current : command.get index = command.bytes[index] := List.getD_eq_getElem _ _ more
        have member := List.getElem_mem more
        rw [← current] at member
        have newline : command.get index ≠ 10 := fun same => noNewline (same ▸ member)
        have terminator : command.get index ≠ 0 := fun same => command.noTerminator (same ▸ member)
        rw [if_neg newline, if_neg terminator, ih (index + 1) (position + 1) _ (by omega)]
        have size : command.bytes.length - index = command.bytes.length - (index + 1) + 1 := by
          omega
        rw [size]
        congr 1
        · funext place
          dsimp only
          rw [Function.update_apply]
          by_cases here : place = position
          · subst here
            rw [if_neg (by omega), if_pos rfl, if_pos (by omega), Nat.sub_self, Nat.add_zero]
          · rw [if_neg here]
            by_cases inside : position + 1 ≤ place ∧
                place ≤ position + 1 + (command.bytes.length - (index + 1))
            · rw [if_pos inside, if_pos (by omega)]
              congr 1
              omega
            · rw [if_neg inside, if_neg (by omega)]
        · omega
      · have ended : command.get index = 0 := List.getD_eq_default _ _ (Nat.le_of_not_lt more)
        have size : command.bytes.length - index = 0 := by omega
        rw [ended, if_neg (by decide), if_pos rfl, size]
        congr 1
        funext place
        dsimp only
        rw [Function.update_apply]
        by_cases here : place = position
        · subst here
          rw [if_pos rfl, if_pos (by omega), Nat.sub_self, Nat.add_zero, ended]
        · rw [if_neg here, if_neg (by omega)]

/-- The name that `execute` gives to `load_program`. -/
def commandName (command : CString) (stack : List UInt8) : CString :=
  CString.ofMemory
    ((List.range filenameLen).map (takeFilename command filenameLen 0 fun _ => 0).2 ++ stack)

/-- The indices at which `load_program` reads the name to find its length. -/
def nameReads (filename : CString) : List Nat := List.range (filename.bytes.length + 1)

theorem takeFilename_command (command : CString) (place : Nat) :
    (takeFilename command filenameLen 0 fun _ => 0).2 place =
      if place < min command.word.length filenameLen then command.get place else 0 := by
  have scanned := (takeFilename_eq command filenameLen 0 (fun _ => 0) (Nat.zero_le _)
    fun place => (if_neg (Nat.not_lt_zero place)).symm).2 place
  rwa [Nat.zero_add] at scanned

/-- The bytes of the filename buffer before the end of the word. -/
theorem filename_word (command : CString) (size : Nat)
    (bound : size ≤ min command.word.length filenameLen) :
    (List.range size).map (takeFilename command filenameLen 0 fun _ => 0).2 =
      command.word.take size := by
  apply List.ext_getElem
  · rw [List.length_map, List.length_range, List.length_take]
    omega
  · intro place inside _
    rw [List.length_map, List.length_range] at inside
    rw [List.getElem_map, List.getElem_range, takeFilename_command, if_pos (by omega),
      command.get_word (by omega), List.getElem_take]

theorem word_noTerminator (command : CString) (size : Nat) :
    ∀ value ∈ command.word.take size, (value != 0) = true := by
  intro value member
  apply bne_iff_ne.2
  rintro rfl
  exact command.noTerminator (List.takeWhile_subset _ (List.mem_of_mem_take member))

/-- A word that leaves room for its terminator is looked up as it is. -/
theorem commandName_short (command : CString) (stack : List UInt8)
    (short : command.word.length < filenameLen) :
    (commandName command stack).bytes = command.word := by
  obtain ⟨more, size⟩ : ∃ more, filenameLen = command.word.length + (more + 1) :=
    ⟨filenameLen - command.word.length - 1, by omega⟩
  have ended := takeFilename_command command command.word.length
  rw [if_neg (by omega)] at ended
  change List.takeWhile _ _ = _
  rw [size, List.range_add, List.map_append, ← size, filename_word command _ (by omega),
    List.take_length, List.append_assoc, List.range_succ_eq_map, List.map_cons, List.map_cons,
    Nat.add_zero, ended, List.cons_append, List.takeWhile_append_of_pos, List.takeWhile_cons_of_neg,
    List.append_nil]
  · simp
  · intro value member
    apply word_noTerminator command command.word.length
    rwa [List.take_length]

/-- A word that fills the buffer has no terminator in it. -/
theorem commandName_long (command : CString) (stack : List UInt8)
    (long : filenameLen ≤ command.word.length) :
    filenameLen ≤ (commandName command stack).bytes.length := by
  change _ ≤ (List.takeWhile _ _).length
  rw [filename_word command filenameLen (by omega), List.takeWhile_append_of_pos
    (word_noTerminator command filenameLen), List.length_append, List.length_take]
  omega

/-- The block holds an argument with its terminator and their common length. -/
structure StoresArgument (pcb : Pcb) (argument : List UInt8) : Prop where
  size : pcb.numCharInArg = argument.length + 1
  bytes : ∀ place ≤ argument.length, pcb.arg place = argument.getD place 0

/-- A short command without a newline stores exactly its argument. -/
theorem takeArgument_stores (command : CString) (pcb : Pcb)
    (short : command.bytes.length < terminalBufferSize) (noNewline : 10 ∉ command.bytes)
    (word : command.word.length < filenameLen) :
    StoresArgument
      (takeArgument command
        (terminalBufferSize -
          skipSpaces command (takeFilename command filenameLen 0 fun _ => 0).1)
        (skipSpaces command (takeFilename command filenameLen 0 fun _ => 0).1) 0 pcb)
      command.argument := by
  have scanned := (takeFilename_eq command filenameLen 0 (fun _ => 0) (Nat.zero_le _)
    fun place => (if_neg (Nat.not_lt_zero place)).symm).1
  rw [Nat.zero_add, if_pos word] at scanned
  have rest : (takeFilename command filenameLen 0 fun _ => 0).1 ≤ command.bytes.length ∧
      (command.bytes.drop (takeFilename command filenameLen 0 fun _ => 0).1).dropWhile
        (· == 32) = command.argument := by
    have last := command.get_word_end
    have bound := command.word_length_le
    rw [scanned]
    by_cases more : command.word.length < command.bytes.length
    · rw [if_pos more] at last ⊢
      rw [CString.get, List.getD_eq_getElem _ _ more] at last
      refine ⟨more, ?_⟩
      rw [CString.argument, List.drop_eq_getElem_cons more,
        List.dropWhile_cons_of_pos (by simp [last])]
    · rw [if_neg more]
      exact ⟨bound, rfl⟩
  obtain ⟨inside, same⟩ := rest
  generalize (takeFilename command filenameLen 0 fun _ => 0).1 = start at inside same
  obtain ⟨bound, dropped⟩ := skipSpaces_drop command start inside
  rw [same] at dropped
  generalize skipSpaces command start = first at bound dropped
  have size : command.argument.length = command.bytes.length - first := by
    rw [← dropped, List.length_drop]
  rw [takeArgument_eq command _ first 0 pcb (by omega) noNewline]
  constructor
  case size =>
    dsimp only
    omega
  case bytes =>
    intro place within
    dsimp only
    rw [if_pos (by omega), ← dropped, CString.get]
    simp [List.getD_eq_getElem?_getD, List.getElem?_drop]

/-- A byte of the program page of the loaded directory, by its user address. -/
def Machine.userByte (machine : Machine) (address : Nat) : UInt8 :=
  machine.frames machine.programFrame (address - mb128)

/-- A buffer in the page of the caller receives an argument and its terminator when both fit, and
every other call is refused. -/
def GetargsLaw (machine : Machine) (argument : List UInt8) : Prop :=
  ∀ (buf : Nat) (nbytes : Int), mb128 ≤ buf → buf + nbytes.toNat ≤ mb128 + mb4 →
    (argument ≠ [] ∧ (argument.length : Int) + 1 ≤ nbytes → ∃ after,
      getargs buf nbytes machine = .ok ⟨after, .returned 0⟩ ∧
        ∀ place ≤ argument.length, after.userByte (buf + place) = argument.getD place 0) ∧
    (¬(argument ≠ [] ∧ (argument.length : Int) + 1 ≤ nbytes) →
      getargs buf nbytes machine = .ok ⟨machine, .returned (-1)⟩)

/-- The copy loop of `getargs` writes the stored bytes from the offset on. -/
theorem copyArgument_eq (offset count : Nat) (arg page : Nat → UInt8) {place : Nat}
    (inside : place < count) :
    forLoop (fun position page => Function.update page (offset + position) (arg position))
      0 count page (offset + place) = arg place := by
  revert place
  apply forLoop_rule fun done (page : Nat → UInt8) =>
    ∀ place < done, page (offset + place) = arg place
  · exact fun _ impossible => absurd impossible (Nat.not_lt_zero _)
  · intro done current early before place within
    rw [Nat.zero_add, Function.update_apply]
    by_cases here : place = done
    · rw [here, if_pos rfl]
    · rw [if_neg (by omega), before place (by omega)]

theorem StoresArgument.getargs {machine : Machine} {argument : List UInt8}
    (stores : StoresArgument machine.currentPcb argument) : GetargsLaw machine argument := by
  intro buf nbytes low high
  have inPage : ¬(buf = 0 ∨ buf > mb128 + mb4 ∨ buf < mb128) := by
    simp only [mb128, mb4] at low high ⊢
    omega
  unfold Kernel.getargs
  rw [if_neg inPage]
  dsimp only
  rw [stores.size]
  constructor
  · rintro ⟨present, room⟩
    have positive := List.length_pos_iff.2 present
    rw [if_neg (by omega), if_neg (by omega), if_neg (by omega)]
    refine ⟨_, rfl, fun place within => ?_⟩
    rw [← stores.bytes place within]
    change Function.update machine.frames machine.programFrame _ machine.programFrame _ = _
    rw [Function.update_self, show buf + place - mb128 = buf - mb128 + place by omega]
    exact copyArgument_eq _ _ _ _ (Nat.lt_succ_of_le within)
  · intro refused
    by_cases empty : argument.length + 1 = 1
    · rw [if_pos empty]
    · have present : argument ≠ [] := fun nil => empty (by rw [nil]; rfl)
      have small : nbytes < (argument.length + 1 : Nat) := by
        by_contra room
        exact refused ⟨present, by omega⟩
      rw [if_neg empty, if_pos small]

/-- The stored argument of a block. -/
def Pcb.arguments (pcb : Pcb) : (Nat → UInt8) × Nat := (pcb.arg, pcb.numCharInArg)

theorem StoresArgument.congr {pcb other : Pcb} {argument : List UInt8}
    (stores : StoresArgument pcb argument) (same : other.arguments = pcb.arguments) :
    StoresArgument other argument := by
  obtain ⟨bytes, size⟩ := Prod.mk.injEq .. ▸ same
  exact ⟨size.trans stores.size, fun place within =>
    (congrFun bytes place).trans (stores.bytes place within)⟩

/-- No step changes the stored argument of a process that exists. -/
theorem Running.arguments_step {machine : Machine} {shells : Stacks (Fin 3) Nat}
    {fs : FileSystem} {log : List Action} {event : Event} {next : System}
    (running : Running machine shells) (stepped : StepCase fs machine log event next)
    {pid : Nat} (member : pid ∈ shells) :
    (next.machine.process pid).arguments = (machine.process pid).arguments := by
  have closed (fileArray : FileArray) :
      ((closedMachine machine fileArray).process pid).arguments =
        (machine.process pid).arguments :=
    machine.cli.updatePcb_field Pcb.arguments _ _ rfl _
  cases stepped with
  | moved | returned | refused | unchanged | shown => rfl
  | failed kernel command stack slot free change frames =>
      exact congrArg Pcb.arguments (running.block_free free change member)
  | started kernel command stack slot free change frames call =>
      obtain ⟨small, idle⟩ := freeSlot_eq_some free
      have same := running.undisturbed_prepared free change frames slot
      have represents := running.toRepresents.congr same.heads same.lineage same.active
      rw [represents.startProcess_process small idle member]
      exact congrArg Pcb.arguments (running.block_free free change member)
  | restarted kernel fileArray root => exact closed fileArray
  | left kernel fileArray child => exact closed fileArray
  | mapped kernel screenStart inPage =>
      rw [vidmap, if_neg (by simp only [mb128, mb4] at inPage ⊢; omega)]
      rfl
  | resumed kernel index runnable =>
      obtain ⟨_, pcb, _, _⟩ := dispatch_fields index
        (machine.console.terminals index).activeProcess.toNat machine.saveContext
      have process := congrFun pcb (getProcessPCB pid)
      refine (congrArg Pcb.arguments process).trans ?_
      exact machine.updatePcb_field Pcb.arguments _ _ rfl _
  | seeded kernel terminal hidden vacant slot free frames =>
      exact congrArg Pcb.arguments (running.shellMachine_process terminal free frames member)

/-- The machine with the argument of a command in the block of a free slot. -/
def parsedMachine (command : CString) (slot : Nat) (machine : Machine) : Machine :=
  let first := skipSpaces command (takeFilename command filenameLen 0 fun _ => 0).1
  (machine.cli.updatePcb (getProcessPCB (slot + 1))
    (takeArgument command (terminalBufferSize - first) first 0)).loadPageDirectory slot

theorem loadCommand_eq (fs : FileSystem) (command : CString) (stack : List UInt8) (slot : Nat)
    (machine : Machine) : loadCommand fs command stack slot machine =
      loadProgram fs (commandName command stack) (parsedMachine command slot machine) := rfl

/-- A command starts its program from the block with its argument. -/
theorem execute_started {fs : FileSystem} {command : CString} {stack : List UInt8}
    {machine : Machine} {outcome : Outcome}
    (finished : execute fs (some command) stack machine = .ok outcome)
    (left : ∀ status, outcome.transfer ≠ .returned status) :
    ∃ slot frames, machine.freeSlot = some slot ∧
      outcome = startProcess slot { parsedMachine command slot machine with frames := frames } := by
  unfold execute at finished
  cases free : machine.freeSlot with
  | none =>
      rw [free] at finished
      cases finished
      exact absurd rfl (left (-1))
  | some slot =>
      simp only [free, loadCommand_eq] at finished
      cases load : loadProgram fs (commandName command stack) (parsedMachine command slot machine)
        with
      | error stop =>
          rw [load] at finished
          cases finished
      | ok loaded =>
          obtain ⟨status, loaded⟩ := loaded
          obtain ⟨frames, rfl⟩ := loadProgram_ok load
          rw [load] at finished
          dsimp only at finished
          split at finished
          · cases finished
            exact absurd rfl (left (-1))
          · cases finished
            exact ⟨slot, frames, rfl, rfl⟩

theorem startProcess_arguments (slot : Nat) (machine : Machine) :
    ((startProcess slot machine).machine.process (slot + 1)).arguments =
      (machine.process (slot + 1)).arguments := by
  change ((machine.updatePcb (getProcessPCB (slot + 1)) (childBlock machine)).pcb
    (getProcessPCB (slot + 1))).arguments = _
  rw [machine.updatePcb_pcb_self]
  rfl

theorem execute_emptyWord {fs : FileSystem} {command : CString} {stack : List UInt8}
    {machine : Machine} (empty : command.word = []) :
    ∃ after, execute fs (some command) stack machine = .ok ⟨after, .returned (-1)⟩ := by
  unfold execute
  cases machine.freeSlot with
  | none => exact ⟨_, rfl⟩
  | some slot =>
      have name : (commandName command stack).bytes = [] := by
        rw [commandName_short command stack (by rw [empty]; decide), empty]
      have missing : fs.readDentryByName (some (commandName command stack)) = none :=
        if_pos ((CString.get_zero _).2 name)
      have load : loadProgram fs (commandName command stack) (parsedMachine command slot machine) =
          .ok (-1, parsedMachine command slot machine) := by
        unfold loadProgram
        rw [name, missing]
        rfl
      simp only [loadCommand_eq, load]
      exact ⟨_, rfl⟩

/-- What `execute` and `getargs` make of a command: the name that is looked up, the refusals, the
reads of the name, and the argument that the started process gets as long as it exists. -/
structure CommandLaw (fs : FileSystem) (system : System) (command : CString)
    (stack : List UInt8) : Prop where
  name : ∀ slot, system.machine.freeSlot = some slot → 1 ≤ command.word.length →
    command.word.length ≤ filenameLen → (commandName command stack).bytes = command.word
  refused : command.word = [] ∨ filenameLen < command.word.length → ∃ after,
    execute fs (some command) stack system.machine = .ok ⟨after, .returned (-1)⟩
  inside : ∀ slot, system.machine.freeSlot = some slot →
    ∀ index ∈ nameReads (commandName command stack), index < filenameLen
  argument : ∀ outcome, execute fs (some command) stack system.machine = .ok outcome →
    (∀ status, outcome.transfer ≠ .returned status) →
    ∀ events later,
      Along (fun current _ => current.machine.active (outcome.machine.currProcess - 1) = true)
        (step fs) ⟨outcome.machine, executeActions outcome ++ system.log⟩ events →
      run (step fs) ⟨outcome.machine, executeActions outcome ++ system.log⟩ events = .ok later →
      later.machine.currProcess = outcome.machine.currProcess →
      later.machine.cpu.userMode = false → GetargsLaw later.machine command.argument

/-- The started process keeps the argument of its command as long as it exists. -/
theorem storesArgument_later {fs : FileSystem} {system : System} (reachable : Reachable fs system)
    (kernel : system.machine.cpu.userMode = false) {command : CString} {stack : List UInt8}
    (short : command.bytes.length < terminalBufferSize) (noNewline : 10 ∉ command.bytes)
    (word : command.word.length < filenameLen) {outcome : Outcome}
    (finished : execute fs (some command) stack system.machine = .ok outcome)
    (left : ∀ status, outcome.transfer ≠ .returned status) {events : List Event} {later : System}
    (alive : Along
      (fun current _ => current.machine.active (outcome.machine.currProcess - 1) = true) (step fs)
      ⟨outcome.machine, executeActions outcome ++ system.log⟩ events)
    (reached : run (step fs) ⟨outcome.machine, executeActions outcome ++ system.log⟩ events =
      .ok later) :
    (∃ shells, Running later.machine shells) ∧
      StoresArgument (later.machine.process outcome.machine.currProcess) command.argument := by
  obtain ⟨shells, running⟩ := running_reachable reachable
  have stepped : step fs system (.execute (some command) stack) =
      .ok ⟨outcome.machine, executeActions outcome ++ system.log⟩ := by
    rw [step, kernel, finished]
    rfl
  obtain ⟨slot, frames, free, rfl⟩ := execute_started finished left
  apply run_invariant (fun current : System => (∃ shells, Running current.machine shells) ∧
    StoresArgument (current.machine.process (slot + 1)) command.argument) _ _ alive reached
  · intro current event next known active first
    obtain ⟨⟨family, runs⟩, stores⟩ := known
    have listed := step_cases first
    have member : slot + 1 ∈ family := (runs.active slot).1 active
    exact ⟨runs.step listed, stores.congr (runs.arguments_step listed member)⟩
  · refine ⟨running.step (step_cases stepped), ?_⟩
    have parsed := takeArgument_stores command
      (system.machine.pcb (getProcessPCB (slot + 1))) short noNewline word
    apply parsed.congr
    rw [startProcess_arguments]
    exact congrArg Pcb.arguments (system.machine.cli.updatePcb_pcb_self _ _)

/-- The law of a command holds exactly when no slot is free or the word has less than 32 bytes. -/
theorem commandLaw_iff (fs : FileSystem) (system : System) (command : CString)
    (stack : List UInt8) (reachable : Reachable fs system)
    (kernel : system.machine.cpu.userMode = false) (short : command.bytes.length ≤ 127)
    (noNewline : 10 ∉ command.bytes) :
    CommandLaw fs system command stack ↔
      system.machine.freeSlot = none ∨ command.word.length < filenameLen := by
  constructor
  · intro law
    by_contra long
    push Not at long
    obtain ⟨slot, free⟩ := Option.ne_none_iff_exists'.1 long.1
    have size := commandName_long command stack long.2
    have read : filenameLen ∈ nameReads (commandName command stack) :=
      List.mem_range.2 (Nat.lt_succ_of_le size)
    exact absurd (law.inside slot free _ read) (Nat.lt_irrefl _)
  · rintro (full | word)
    · have failed : execute fs (some command) stack system.machine =
          .ok ⟨system.machine.cli, .returned (-1)⟩ := by
        rw [execute, full]
      constructor
      case name | inside => simp [full]
      case refused => exact fun _ => ⟨_, failed⟩
      case argument =>
        intro outcome finished left
        rw [failed] at finished
        cases finished
        exact absurd rfl (left (-1))
    · have name := commandName_short command stack word
      constructor
      case name => exact fun _ _ _ _ => name
      case refused =>
        rintro (empty | long)
        · exact execute_emptyWord empty
        · omega
      case inside =>
        intro slot _ index read
        rw [nameReads, name, List.mem_range] at read
        omega
      case argument =>
        intro outcome finished left events later alive reached current mode
        obtain ⟨⟨shells, running⟩, stores⟩ := storesArgument_later reachable kernel
          (Nat.lt_succ_of_le short) noNewline word finished left alive reached
        apply StoresArgument.getargs
        rw [running.currentPcb mode, current]
        exact stores

/-- The command of the first shell with an argument of two bytes. -/
def shellCommand : CString := ⟨[115, 104, 101, 108, 108, 32, 104, 105], by decide⟩

/-- A command whose name has 32 bytes, like that of a file in the image of the repository. -/
def longCommand : CString := ⟨List.replicate 32 118, by decide⟩

/-- The first shell runs in the kernel, and a slot is free. -/
theorem shellKernel_reachable : ∃ system, Reachable shellImage system ∧
    system.machine.cpu.userMode = false ∧ system.machine.freeSlot = some 1 := by
  have passed : bootCheck shellImage coldMachine bootStack [] (step shellImage)
      [.kernelStack 0x7FD000 0x7FD000] (fun _ system =>
        !system.machine.cpu.userMode && system.machine.freeSlot == some 1) = true := by
    decide +kernel
  obtain ⟨initial, system, booted, reached, checked⟩ := bootCheck_sound passed
  rw [Bool.and_eq_true] at checked
  exact ⟨system, ⟨_, _, _, _, initial, booted, reached⟩, by simpa using checked.1,
    by simpa using checked.2⟩

/-- The law holds for a name of five bytes and fails for a name of 32. -/
theorem commandLaw_shell : ∃ system, CommandLaw shellImage system shellCommand [] ∧
    ¬CommandLaw shellImage system longCommand [] := by
  obtain ⟨system, reachable, kernel, free⟩ := shellKernel_reachable
  have short := commandLaw_iff shellImage system shellCommand [] reachable kernel (by decide)
    (by decide)
  have long := commandLaw_iff shellImage system longCommand [] reachable kernel (by decide)
    (by decide)
  rw [free] at short long
  exact ⟨system, short.2 (.inr (by decide)), fun law => absurd (long.1 law) (by decide)⟩

/-- A name of the greatest legal length leaves no room for its terminator. -/
theorem longCommand_not_commandLaw : ∃ system, Reachable shellImage system ∧
    system.machine.cpu.userMode = false ∧ longCommand.bytes.length ≤ 127 ∧
    10 ∉ longCommand.bytes ∧ longCommand.word.length = filenameLen ∧
    ¬CommandLaw shellImage system longCommand [0] := by
  obtain ⟨system, reachable, kernel, free⟩ := shellKernel_reachable
  refine ⟨system, reachable, kernel, by decide, by decide, by decide, fun law => ?_⟩
  have size := commandName_long longCommand [0] (by decide)
  have read : filenameLen ∈ nameReads (commandName longCommand [0]) :=
    List.mem_range.2 (Nat.lt_succ_of_le size)
  exact absurd (law.inside 1 free _ read) (Nat.lt_irrefl _)

end ComputerSystems.Kernel
