import ComputerSystems.Construction.Kernel.Rtc
import ComputerSystems.Proof.Kernel.CommandLine
import ComputerSystems.Proof.Kernel.KeyboardQueue
import ComputerSystems.Proof.Kernel.PageIsolation
import ComputerSystems.Proof.Kernel.ReadBounds

namespace ComputerSystems.Kernel
open ComputerSystems.Library

/-- What happens to the machine: the process calls, the other system calls of the running process,
a store of its user code, and the interrupts of the clock and of the keyboard. The buffer of a read
is a pointer into the page of the caller, or null. -/
inductive Deed where
  | event (event : Event)
  | sysOpen (filename : Option CString)
  | sysClose (fd : Int)
  | sysRead (fd : Int) (buf : Option Nat) (nbytes : Int)
  | sysWrite (fd : Int) (buf : Option (Nat → UInt8)) (nbytes : Int)
  | getargs (buf : Nat) (nbytes : Int)
  | store (page offset : Nat) (byte : UInt8)
  | rtcInt
  | key (scancode nextScancode : UInt8)

namespace Machine

def callState (machine : Machine) : CallState := ⟨machine.currentPcb, machine.console⟩

/-- The machine after a file call of the running process. -/
def afterCall (machine : Machine) (after : CallState) : Machine :=
  { machine.updatePcb (getCurrentProcessPCB machine.cpu.esp) (fun _ => after.pcb) with
    console := after.console }

/-- A store to physical memory. The program pages begin behind the kernel. -/
def storePhysical (machine : Machine) (address : Nat) (byte : UInt8) : Machine :=
  if address < 0x800000 then
    { machine with
      console := { machine.console with
        video := Function.update machine.console.video address byte } }
  else
    { machine with
      frames := Function.update machine.frames (address / mb4 * mb4)
        (Function.update (machine.frames (address / mb4 * mb4)) (address % mb4) byte) }

/-- A read stores its bytes in the page of the running process. -/
def deliver (machine : Machine) (buf room : Nat) (bytes : Nat → UInt8) : Machine :=
  { machine with
    frames := Function.update machine.frames machine.programFrame fun offset =>
      if buf - mb128 ≤ offset ∧ offset < buf - mb128 + room then bytes (offset - (buf - mb128))
      else machine.frames machine.programFrame offset }

end Machine

/-- The room that a read may fill. A read of a directory does not look at its count. -/
def readRoom (fd nbytes : Int) (fileArray : FileArray) : Nat :=
  match fdIndex fd with
  | none => 0
  | some index =>
      if (fileArray index).fileOpsTablePtr = .directoryOps then filenameLen + 1
      else (BitVec.ofInt 32 nbytes).toNat

/-- One deed. System calls and interrupts run in kernel mode, stores in user mode. -/
def deedStep (fs : FileSystem) (machine : Machine) (deed : Deed) : Except Stop Machine :=
  match deed with
  | .event event => (step fs ⟨machine, []⟩ event).map System.machine
  | .store page offset byte =>
      if machine.cpu.userMode ∧ page < numEntries * numEntries ∧ offset < kb4 then
        match machine.userFrame machine.cpu.cr3.toNat page with
        | none => .error .pageFault
        | some frame => .ok (machine.storePhysical (frame + offset) byte)
      else .error .blocked
  | deed =>
      if machine.cpu.userMode then .error .blocked
      else
        match deed with
        | .sysOpen filename => .ok (machine.updatePcb (getCurrentProcessPCB machine.cpu.esp)
            fun pcb => { pcb with fileArray := (sysOpen fs filename pcb.fileArray).2 })
        | .sysClose fd => (sysClose fd machine.currentPcb.fileArray).map fun closed =>
            machine.updatePcb (getCurrentProcessPCB machine.cpu.esp) fun pcb =>
              { pcb with fileArray := closed.2 }
        | .sysRead fd none nbytes =>
            (sysRead fs fd none nbytes machine.console machine.console machine.callState).map
              fun read => machine.afterCall read.2.2
        | .sysRead fd (some buf) nbytes =>
            let room := readRoom fd nbytes machine.currentPcb.fileArray
            let bytes := fun index => machine.userByte (buf + index)
            if mb128 ≤ buf ∧ buf + room ≤ mb128 + mb4 then
              (sysRead fs fd (some bytes) nbytes machine.console machine.console
                machine.callState).map fun read =>
                  (machine.afterCall read.2.2).deliver buf room (read.2.1.getD bytes)
            else .error .blocked
        | .sysWrite fd buf nbytes =>
            (sysWrite fd buf nbytes machine.callState).map fun written =>
              machine.afterCall written.2
        | .getargs buf nbytes => (getargs buf nbytes machine).map Outcome.machine
        | .rtcInt => .ok { machine with pcb := rtcInt machine.pcb }
        | .key scancode nextScancode => handleKeypress fs scancode nextScancode machine
        | .event _ => .error .blocked
        | .store _ _ _ => .error .blocked

/-- The terminals have the same processes and pages. -/
def SameSeats (console after : Console) : Prop := ∀ terminal,
  (after.terminals terminal).activeProcess = (console.terminals terminal).activeProcess ∧
    (after.terminals terminal).storageLocation = (console.terminals terminal).storageLocation

namespace SameSeats

variable {console middle after : Console}

theorem refl (console : Console) : SameSeats console console := fun _ => ⟨rfl, rfl⟩

theorem trans (first : SameSeats console middle) (second : SameSeats middle after) :
    SameSeats console after := fun terminal =>
  ⟨(second terminal).1.trans (first terminal).1, (second terminal).2.trans (first terminal).2⟩

/-- A terminal that keeps its process and its page. -/
theorem setTerminal (console : Console) {index : Fin 3} {terminal : Terminal}
    (process : terminal.activeProcess = (console.terminals index).activeProcess)
    (page : terminal.storageLocation = (console.terminals index).storageLocation) :
    SameSeats console (console.setTerminal index terminal) := fun other =>
  ⟨console.setTerminal_field Terminal.activeProcess process other,
    console.setTerminal_field Terminal.storageLocation page other⟩

theorem redrawn (console : Console) {index : Fin 3} {terminal : Terminal}
    (process : terminal.activeProcess = (console.terminals index).activeProcess)
    (page : terminal.storageLocation = (console.terminals index).storageLocation)
    (video : Nat → UInt8) : SameSeats console (Kernel.redrawn console index terminal video) := by
  intro other
  rw [(redrawn_fields console index terminal video).1]
  exact setTerminal console process page other

theorem terminalPutc (input attr : UInt8) (index : Fin 3) (console : Console) :
    SameSeats console (Kernel.terminalPutc input attr index console) := by
  obtain ⟨posX, posY, moved⟩ := putc_terminal input attr (console.terminals index) console.video
  change SameSeats console (Kernel.redrawn console index (scrollScreen _ _).1 (scrollScreen _ _).2)
  rw [moved]
  apply redrawn
  · rfl
  · rfl

theorem terminalWrite (fd : Fin 8) (buffer : Option (Nat → UInt8)) (characters : Int)
    (index : Fin 3) (console : Console) :
    SameSeats console (Kernel.terminalWrite fd buffer characters index console).2 := by
  unfold Kernel.terminalWrite
  split
  · exact refl console
  · cases buffer with
    | none => exact refl console
    | some bytes =>
        apply forLoop_rule fun _ current => SameSeats console current
        · exact refl console
        · exact fun done current _ same =>
            same.trans (terminalPutc (bytes (0 + done)) attrib index current)

theorem clearTerminal (index : Fin 3) (console : Console) :
    SameSeats console (Kernel.clearTerminal index console) := by
  change SameSeats console (Kernel.redrawn console index
    { console.terminals index with posX := 0, posY := 0 } _)
  apply redrawn
  · rfl
  · rfl

theorem backspace (console : Console) : SameSeats console (Kernel.backspace console) := by
  unfold Kernel.backspace
  dsimp only
  split_ifs
  · exact refl console
  · exact setTerminal console rfl rfl
  · exact setTerminal console rfl rfl
  · exact setTerminal console rfl rfl

theorem typeCharacter (pressed : UInt8) (console : Console) :
    SameSeats console (Kernel.typeCharacter pressed console) := by
  unfold Kernel.typeCharacter
  dsimp only
  split_ifs
  · exact (terminalPutc pressed attrib console.activeTerminalIndex console).trans
      (setTerminal _ rfl rfl)
  · exact refl console

theorem terminalRead {fd : Fin 8} {buffer : Option (Nat → UInt8)} {numBytes : Int} {index : Fin 3}
    {read : Int × Option (Nat → UInt8) × Console}
    (finished : Kernel.terminalRead fd buffer numBytes index console console console = some read) :
    SameSeats console read.2.2 := by
  unfold Kernel.terminalRead at finished
  split at finished
  · cases finished
    exact refl console
  · split at finished
    · cases finished
      exact refl console
    · dsimp only at finished
      split_ifs at finished
      cases finished
      exact setTerminal console rfl rfl

end SameSeats

/-- A file call keeps all of the block but the table and the count of the clock. -/
def OwnFiles (pcb after : Pcb) : Prop :=
  ∃ fileArray rtcCount, after = { pcb with fileArray := fileArray, rtcCount := rtcCount }

theorem OwnFiles.trans {first second third : Pcb} (one : OwnFiles first second)
    (two : OwnFiles second third) : OwnFiles first third := by
  obtain ⟨_, _, rfl⟩ := one
  obtain ⟨_, _, rfl⟩ := two
  exact ⟨_, _, rfl⟩

theorem rtcWait_files (pcb : Pcb) : OwnFiles pcb (rtcWait pcb) := by
  unfold rtcWait
  generalize pcb.rtcCount = fuel
  induction fuel generalizing pcb with
  | zero => exact ⟨_, _, rfl⟩
  | succ fuel ih =>
      rw [whileLoop]
      split_ifs
      · obtain ⟨fileArray, rtcCount, waited⟩ := ih (rtcTick pcb)
        rw [waited, rtcTick]
        split_ifs <;> exact ⟨_, _, rfl⟩
      · exact ⟨_, _, rfl⟩

theorem terminalRead_isSome {fd : Fin 8} {buffer : Option (Nat → UInt8)} {numBytes : Int}
    {place : Fin 3} {console tested entered : Console} {read : Int × Option (Nat → UInt8) × Console}
    (finished : terminalRead fd buffer numBytes place console tested entered = some read) :
    read.2.1.isSome = buffer.isSome := by
  unfold terminalRead at finished
  split at finished
  · cases finished
    rfl
  · split at finished
    · cases finished
      rfl
    · dsimp only at finished
      split_ifs at finished
      cases finished
      rfl

/-- A read keeps the console unless it is one of a terminal. -/
theorem sysRead_own {fs : FileSystem} {fd nbytes : Int} {buf : Option (Nat → UInt8)}
    {tested entered : Console} {state : CallState} {read : Int × Option (Nat → UInt8) × CallState}
    (finished : sysRead fs fd buf nbytes tested entered state = .ok read) :
    read.2.1.isSome = buf.isSome ∧ OwnFiles state.pcb read.2.2.pcb ∧
      (read.2.2.console = state.console ∨ ∃ index, fdIndex fd = some index ∧
        (state.pcb.fileArray index).flags ≠ .fileAvail ∧
        (state.pcb.fileArray index).fileOpsTablePtr = .terminalOps ∧
        terminalRead index buf nbytes state.pcb.terminalIndex state.console tested entered =
          some (read.1, read.2.1, read.2.2.console)) := by
  unfold sysRead at finished
  split at finished
  · cases finished
    exact ⟨rfl, ⟨_, _, rfl⟩, .inl rfl⟩
  · next index descriptor =>
    dsimp only at finished
    split at finished
    · cases finished
      exact ⟨rfl, ⟨_, _, rfl⟩, .inl rfl⟩
    · next occupied =>
      split at finished
      · next terminal =>
        split at finished
        · cases finished
        · next taken =>
          cases finished
          exact ⟨terminalRead_isSome taken, ⟨_, _, rfl⟩,
            .inr ⟨index, descriptor, occupied, terminal, taken⟩⟩
      · split at finished
        · cases finished
        · split at finished
          · cases finished
          · cases finished
            exact ⟨Option.isSome_map, ⟨_, _, rfl⟩, .inl rfl⟩
      · split at finished
        · cases finished
        · cases finished
          exact ⟨Option.isSome_map, ⟨_, _, rfl⟩, .inl rfl⟩
      · split at finished
        · cases finished
        · next waited =>
          cases finished
          obtain ⟨period, _, rfl⟩ := Option.map_eq_some_iff.1 waited
          obtain ⟨fileArray, rtcCount, same⟩ :=
            rtcWait_files { state.pcb with rtcCount := (period % 2 ^ 32).toNat }
          exact ⟨rfl, ⟨fileArray, rtcCount, same⟩, .inl rfl⟩
      · cases finished
      · cases finished

theorem sysRead_seats {fs : FileSystem} {fd nbytes : Int} {buf : Option (Nat → UInt8)}
    {state : CallState} {read : Int × Option (Nat → UInt8) × CallState}
    (finished : sysRead fs fd buf nbytes state.console state.console state = .ok read) :
    SameSeats state.console read.2.2.console := by
  rcases (sysRead_own finished).2.2 with same | ⟨index, _, _, _, taken⟩
  · rw [same]
    exact .refl _
  · exact .terminalRead taken

section
variable {bytes : Nat → UInt8} {index : Nat}

/-- A read of the keyboard changes nothing behind its count. -/
theorem terminalRead_within {fd : Fin 8} {nbytes : Int} {place : Fin 3}
    {console tested entered : Console} {read : Int × Option (Nat → UInt8) × Console}
    (range : -2 ^ 31 ≤ nbytes ∧ nbytes < 2 ^ 31)
    (finished : terminalRead fd (some bytes) nbytes place console tested entered = some read)
    (beyond : (BitVec.ofInt 32 nbytes).toNat ≤ index) :
    read.2.1.getD bytes index = bytes index := by
  rw [BitVec.toNat_ofInt] at beyond
  unfold terminalRead at finished
  split_ifs at finished
  · cases finished
    rfl
  · cases finished
    change copyInput _ _ bytes index = bytes index
    rw [copyInput_eq, if_neg]
    unfold readLength clipLength
    simp only [terminalBufferSize]
    split_ifs <;> omega

theorem fileRead_within {fs : FileSystem} {fd : Fin 8} {count : Word} {fileArray : FileArray}
    {read : Int × (Nat → UInt8) × FileArray}
    (finished : fileRead fs fd bytes count fileArray = some read)
    (beyond : count.toNat ≤ index) : read.2.1 index = bytes index := by
  unfold fileRead at finished
  split_ifs at finished
  · cases finished
    rfl
  · obtain ⟨outcome, returned, rfl⟩ := Option.map_eq_some_iff.1 finished
    exact (readData_bounds fs _ _ _ bytes returned).1 index beyond

/-- A name has room for its longest length and the terminator. -/
theorem directoryRead_within (fs : FileSystem) (fd : Fin 8) (fileArray : FileArray)
    (beyond : filenameLen + 1 ≤ index) :
    (directoryRead fs fd bytes fileArray).2.1 index = bytes index := by
  cases found : fs.readDentryByIndex (fileArray fd).filePosition.toNat with
  | none => rw [directoryRead_none found]
  | some dentry =>
      have short := dentry.fullName_length_le
      obtain ⟨buf, after, named, stored, _⟩ := directoryRead_some found bytes
      rw [named]
      dsimp only [filenameLen] at beyond ⊢
      rw [stored, if_neg (by omega), if_neg (by omega)]

/-- A read changes nothing behind its room. -/
theorem sysRead_within {fs : FileSystem} {fd nbytes : Int} {tested entered : Console}
    {state : CallState} {read : Int × Option (Nat → UInt8) × CallState}
    (range : -2 ^ 31 ≤ nbytes ∧ nbytes < 2 ^ 31)
    (finished : sysRead fs fd (some bytes) nbytes tested entered state = .ok read)
    (beyond : readRoom fd nbytes state.pcb.fileArray ≤ index) :
    read.2.1.getD bytes index = bytes index := by
  unfold readRoom at beyond
  unfold sysRead at finished
  cases descriptor : fdIndex fd with
  | none =>
      rw [descriptor] at finished
      cases finished
      rfl
  | some place =>
      rw [descriptor] at finished beyond
      dsimp only at finished beyond
      split at finished
      · cases finished
        rfl
      · split at finished
        case h_1 table =>
          rw [table, if_neg (by decide)] at beyond
          split at finished
          · cases finished
          · next taken =>
            cases finished
            exact terminalRead_within range taken beyond
        case h_2 table =>
          rw [table, if_neg (by decide)] at beyond
          split at finished
          · cases finished
          · split at finished
            · cases finished
            · next taken =>
              cases finished
              exact fileRead_within taken beyond
        case h_3 table =>
          rw [table, if_pos rfl] at beyond
          split at finished
          · cases finished
          · cases finished
            exact directoryRead_within fs place state.pcb.fileArray beyond
        case h_4 =>
          split at finished
          · cases finished
          · cases finished
            rfl
        case h_5 => cases finished
        case h_6 => cases finished

end

/-- After a read the page of the caller holds the buffer of the call. -/
theorem deedStep_delivers {fs : FileSystem} {machine after : Machine} {fd nbytes : Int} {buf : Nat}
    (range : -2 ^ 31 ≤ nbytes ∧ nbytes < 2 ^ 31)
    (finished : deedStep fs machine (.sysRead fd (some buf) nbytes) = .ok after) :
    let bytes := fun index => machine.userByte (buf + index)
    ∃ read, sysRead fs fd (some bytes) nbytes machine.console machine.console machine.callState =
        .ok read ∧
      ∀ index, after.userByte (buf + index) = read.2.1.getD bytes index := by
  rw [deedStep] at finished
  split_ifs at finished with mode
  dsimp only at finished
  split_ifs at finished with inPage
  obtain ⟨read, call, rfl⟩ := map_ok finished
  refine ⟨read, call, fun index => ?_⟩
  have place : buf + index - mb128 = buf - mb128 + index := by omega
  change Function.update machine.frames machine.programFrame _ machine.programFrame _ = _
  rw [Function.update_self, place]
  split
  · rw [Nat.add_sub_cancel_left]
  · next outside =>
    have beyond : readRoom fd nbytes machine.currentPcb.fileArray ≤ index := by omega
    rw [sysRead_within range call beyond, ← place]
    rfl

theorem sysWrite_own {fd : Int} {buf : Option (Nat → UInt8)} {nbytes : Int} {state : CallState}
    {written : Int × CallState} (finished : sysWrite fd buf nbytes state = .ok written) :
    OwnFiles state.pcb written.2.pcb ∧ SameSeats state.console written.2.console := by
  unfold sysWrite at finished
  split at finished
  · cases finished
    exact ⟨⟨_, _, rfl⟩, .refl _⟩
  · dsimp only at finished
    split at finished
    · cases finished
      exact ⟨⟨_, _, rfl⟩, .refl _⟩
    · split at finished
      · cases finished
        exact ⟨⟨_, _, rfl⟩, .terminalWrite _ _ _ _ _⟩
      · cases finished
        exact ⟨⟨_, _, rfl⟩, .refl _⟩
      · cases finished
        exact ⟨⟨_, _, rfl⟩, .refl _⟩
      · cases finished
        exact ⟨⟨_, _, rfl⟩, .refl _⟩
      · cases finished
      · cases finished

end ComputerSystems.Kernel
