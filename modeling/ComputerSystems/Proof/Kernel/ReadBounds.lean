import ComputerSystems.Proof.Kernel.DirectoryNames
import ComputerSystems.Proof.Kernel.ProcessTable
import ComputerSystems.Proof.Kernel.ReadDataSlice

namespace ComputerSystems.Kernel
open ComputerSystems.Library

/-- Whatever the buffer holds, a read that returns leaves the bytes from the requested count on
alone, and it does not report more bytes than that. -/
def StaysInBuffer (fs : FileSystem) (fd nbytes : Int) (tested entered : Console)
    (state : CallState) : Prop :=
  ∀ bytes result buf after,
    sysRead fs fd (some bytes) nbytes tested entered state = .ok (result, some buf, after) →
      (∀ index : Nat, max nbytes 0 ≤ index → buf index = bytes index) ∧
        (0 ≤ result → result ≤ max nbytes 0)

/-- A file has a byte at the position of the descriptor, and its block number passes the check. -/
def HasByte (fs : FileSystem) (entry : FileT) : Prop :=
  entry.inodeNum.toNat < fs.inodeCount ∧
    entry.filePosition.toNat < fs.inodeLength entry.inodeNum.toNat ∧
    fs.dataBlockNum entry.inodeNum.toNat (entry.filePosition.toNat / 4096) < int32 fs.dataCount

/-- The condition under which a read on an open descriptor stays in its buffer. -/
def BufferFits (fs : FileSystem) (index : Fin 8) (nbytes : Int) (entered : Console)
    (pcb : Pcb) : Prop :=
  match (pcb.fileArray index).fileOpsTablePtr with
  | .terminalOps => 0 ≤ nbytes ∨ index = 1 ∨
      (entered.terminals pcb.terminalIndex).charsInBuffer = 0
  | .fileOps => 0 ≤ nbytes ∨ index < 2 ∨ ¬HasByte fs (pcb.fileArray index)
  | .directoryOps => ∀ dentry,
      fs.readDentryByIndex (pcb.fileArray index).filePosition.toNat = some dentry →
        (dentry.fullName.length : Int) < nbytes
  | _ => True

theorem copyInput_eq (length : Nat) (terminal : Terminal) (bytes : Nat → UInt8) (index : Nat) :
    copyInput length terminal bytes index =
      if index < length then terminal.buffer index else bytes index :=
  forLoop_update terminal.buffer (fun _ _ _ _ => rfl) index

/-- The unsigned comparison clips a nonnegative count, and it takes everything for a negative. -/
theorem readLength_le_iff (nbytes : Int) (terminal : Terminal)
    (range : -2 ^ 31 ≤ nbytes ∧ nbytes < 2 ^ 31) :
    (readLength (clipLength nbytes) terminal : Int) ≤ max nbytes 0 ↔
      0 ≤ nbytes ∨ terminal.charsInBuffer = 0 := by
  unfold readLength clipLength
  simp only [terminalBufferSize]
  split_ifs <;> omega

theorem terminalRead_bounds (index : Fin 8) (nbytes : Int) (place : Fin 3)
    (console tested entered : Console) (range : -2 ^ 31 ≤ nbytes ∧ nbytes < 2 ^ 31)
    (fits : 0 ≤ nbytes ∨ index = 1 ∨ (entered.terminals place).charsInBuffer = 0)
    {bytes buf : Nat → UInt8} {result : Int} {after : Console}
    (finished : terminalRead index (some bytes) nbytes place console tested entered =
      some (result, some buf, after)) :
    (∀ position : Nat, max nbytes 0 ≤ position → buf position = bytes position) ∧
      (0 ≤ result → result ≤ max nbytes 0) := by
  unfold terminalRead at finished
  split_ifs at finished with stdout
  · cases finished
    exact ⟨fun _ _ => rfl, by omega⟩
  · cases finished
    have small := (readLength_le_iff nbytes (entered.terminals place) range).2 (by
      rcases fits with nonnegative | rfl | empty
      · exact .inl nonnegative
      · exact absurd rfl stdout
      · exact .inr empty)
    refine ⟨fun position beyond => ?_, fun _ => small⟩
    change copyInput _ _ bytes position = bytes position
    rw [copyInput_eq, if_neg (by omega)]

/-- A negative count takes the whole input of the terminal. -/
theorem terminalRead_overrun (index : Fin 8) (nbytes : Int) (place : Fin 3)
    (console tested entered : Console) (range : -2 ^ 31 ≤ nbytes ∧ nbytes < 2 ^ 31)
    (overrun : ¬(0 ≤ nbytes ∨ index = 1 ∨ (entered.terminals place).charsInBuffer = 0))
    (bytes : Nat → UInt8) :
    ∃ result buf after, terminalRead index (some bytes) nbytes place console tested entered =
      some (result, some buf, after) ∧ 0 ≤ result ∧ ¬result ≤ max nbytes 0 := by
  push Not at overrun
  obtain ⟨negative, stdin, pending⟩ := overrun
  have passes : readWaits (clipLength nbytes) (tested.terminals place) = false := by
    unfold readWaits clipLength
    rw [Bool.and_eq_false_iff]
    left
    rw [if_neg (by omega)]
    exact decide_eq_false (by omega)
  have returned : terminalRead index (some bytes) nbytes place console tested entered =
      some ((readCritical nbytes place bytes entered).1,
        some (readCritical nbytes place bytes entered).2.1,
        (readCritical nbytes place bytes entered).2.2) := by
    unfold terminalRead
    rw [if_neg stdin]
    dsimp only
    rw [passes]
    rfl
  refine ⟨_, _, _, returned, Int.natCast_nonneg _, fun fits => ?_⟩
  rcases (readLength_le_iff nbytes (entered.terminals place) range).1 fits with other | empty
  · omega
  · exact pending empty

theorem readData_bounds (fs : FileSystem) (inode offset length : Word) (buf : Nat → UInt8)
    {outcome : ReadOutcome} (finished : readData fs inode offset buf length = some outcome) :
    (∀ position, length.toNat ≤ position → outcome.buf position = buf position) ∧
      (length.toNat < 2 ^ 31 → outcome.result ≤ length.toNat) := by
  by_cases outOfRange : fs.inodeCount ≤ inode.toNat
  · rw [readData_outOfRange fs inode offset length buf outOfRange] at finished
    cases finished
    exact ⟨fun _ _ => rfl, fun _ => by dsimp only; omega⟩
  by_cases pastEnd : fs.inodeLength inode.toNat ≤ offset.toNat
  · rw [readData_pastEnd fs inode offset length buf (by omega) pastEnd] at finished
    cases finished
    exact ⟨fun _ _ => rfl, fun _ => by dsimp only; omega⟩
  · obtain ⟨actual, returned, spec⟩ := readData_spec fs inode offset length buf (by omega)
      (by omega)
    obtain rfl := Option.some.inj (finished.symm.trans returned)
    have clipped : requested fs inode.toNat offset.toNat length.toNat ≤ length.toNat :=
      Nat.min_le_left ..
    refine ⟨fun position beyond => spec.rest position (clipped.trans beyond), fun small => ?_⟩
    by_cases pass : BlocksPass fs inode.toNat (offset.toNat / 4096)
        (lastIndex offset.toNat (requested fs inode.toNat offset.toNat length.toNat))
    · rw [spec.passed pass, int32, if_pos (by omega)]
      exact_mod_cast clipped
    · rw [spec.failed pass]
      omega

/-- A request for at least one byte stores the byte at the position. -/
theorem readData_stores (fs : FileSystem) (entry : FileT) (length : Word) (buf : Nat → UInt8)
    (hasByte : HasByte fs entry) (positive : 0 < length.toNat) :
    ∃ outcome, readData fs entry.inodeNum entry.filePosition buf length = some outcome ∧
      outcome.buf 0 =
        fs.byte (sourceOffset fs entry.inodeNum.toNat entry.filePosition.toNat 0) := by
  obtain ⟨inRange, inFile, legal⟩ := hasByte
  obtain ⟨outcome, returned, spec⟩ := readData_spec fs entry.inodeNum entry.filePosition length buf
    inRange inFile
  refine ⟨outcome, returned, spec.bytes 0 ?_ ?_⟩
  · rw [requested]
    omega
  · intro index lower upper
    rwa [Nat.le_antisymm upper lower]

/-- Without a byte at the position `read_data` stores nothing. -/
theorem readData_silent (fs : FileSystem) (entry : FileT) (length : Word) (buf : Nat → UInt8)
    (empty : ¬HasByte fs entry) {outcome : ReadOutcome}
    (finished : readData fs entry.inodeNum entry.filePosition buf length = some outcome) :
    outcome.buf = buf ∧ outcome.result ≤ 0 := by
  by_cases outOfRange : fs.inodeCount ≤ entry.inodeNum.toNat
  · rw [readData_outOfRange fs _ _ length buf outOfRange] at finished
    cases finished
    exact ⟨rfl, by dsimp only; omega⟩
  by_cases pastEnd : fs.inodeLength entry.inodeNum.toNat ≤ entry.filePosition.toNat
  · rw [readData_pastEnd fs _ _ length buf (Nat.lt_of_not_le outOfRange) pastEnd] at finished
    cases finished
    exact ⟨rfl, by dsimp only; omega⟩
  · have rejected : int32 fs.dataCount ≤
        fs.dataBlockNum entry.inodeNum.toNat (entry.filePosition.toNat / numBytesInFourKb) :=
      Int.not_lt.1 fun legal =>
        empty ⟨Nat.lt_of_not_le outOfRange, Nat.lt_of_not_le pastEnd, legal⟩
    unfold readData at finished
    rw [if_neg outOfRange, if_neg pastEnd, returnLoop, readBlock, if_pos rejected] at finished
    cases finished
    exact ⟨rfl, by dsimp only; omega⟩

theorem fileRead_bounds (fs : FileSystem) (index : Fin 8) (nbytes : Int) (fileArray : FileArray)
    (range : -2 ^ 31 ≤ nbytes ∧ nbytes < 2 ^ 31)
    (fits : 0 ≤ nbytes ∨ index < 2 ∨ ¬HasByte fs (fileArray index))
    {bytes buf : Nat → UInt8} {result : Int} {after : FileArray}
    (finished : fileRead fs index bytes (BitVec.ofInt 32 nbytes) fileArray =
      some (result, buf, after)) :
    (∀ position : Nat, max nbytes 0 ≤ position → buf position = bytes position) ∧
      (0 ≤ result → result ≤ max nbytes 0) := by
  unfold fileRead at finished
  split_ifs at finished with standard
  · cases finished
    exact ⟨fun _ _ => rfl, by omega⟩
  · rw [Option.map_eq_some_iff] at finished
    obtain ⟨outcome, returned, equal⟩ := finished
    cases equal
    by_cases nonnegative : 0 ≤ nbytes
    · have count : (BitVec.ofInt 32 nbytes).toNat = nbytes.toNat := by
        rw [BitVec.toNat_ofInt]
        omega
      obtain ⟨rest, counted⟩ := readData_bounds fs _ _ _ bytes returned
      rw [count] at rest counted
      have clipped := counted (by omega)
      exact ⟨fun position beyond => rest position (by omega), fun _ => by omega⟩
    · have empty : ¬HasByte fs (fileArray index) := by
        rcases fits with other | low | empty
        · exact absurd other nonnegative
        · omega
        · exact empty
      obtain ⟨same, none⟩ := readData_silent fs _ _ bytes empty returned
      exact ⟨fun position _ => congrFun same position, fun _ => by omega⟩

/-- A negative count lets `file_read` store the first byte, whatever the buffer holds. -/
theorem fileRead_overrun (fs : FileSystem) (index : Fin 8) (nbytes : Int) (fileArray : FileArray)
    (range : -2 ^ 31 ≤ nbytes ∧ nbytes < 2 ^ 31)
    (overrun : ¬(0 ≤ nbytes ∨ index < 2 ∨ ¬HasByte fs (fileArray index))) :
    ∃ bytes result buf after,
      fileRead fs index bytes (BitVec.ofInt 32 nbytes) fileArray = some (result, buf, after) ∧
        max nbytes 0 ≤ 0 ∧ buf 0 ≠ bytes 0 := by
  push Not at overrun
  obtain ⟨negative, high, hasByte⟩ := overrun
  have positive : 0 < (BitVec.ofInt 32 nbytes).toNat := by
    rw [BitVec.toNat_ofInt]
    omega
  let other : UInt8 := fs.byte (sourceOffset fs (fileArray index).inodeNum.toNat
    (fileArray index).filePosition.toNat 0) + 1
  obtain ⟨outcome, returned, stored⟩ := readData_stores fs (fileArray index) _ (fun _ => other)
    hasByte positive
  have read : fileRead fs index (fun _ => other) (BitVec.ofInt 32 nbytes) fileArray =
      some (outcome.result, outcome.buf, Function.update fileArray index
        { fileArray index with
          filePosition := (fileArray index).filePosition + BitVec.ofInt 32 outcome.result }) := by
    unfold fileRead
    rw [if_neg (by omega), returned]
    rfl
  refine ⟨_, _, _, _, read, by omega, ?_⟩
  rw [stored]
  simp [other]

/-- The name and its terminator have to fit, whatever the buffer holds. -/
theorem directoryRead_bounds_iff (fs : FileSystem) (index : Fin 8) (nbytes : Int)
    (fileArray : FileArray) :
    (∀ bytes : Nat → UInt8,
      (∀ position : Nat, max nbytes 0 ≤ position →
        (directoryRead fs index bytes fileArray).2.1 position = bytes position) ∧
        (0 ≤ (directoryRead fs index bytes fileArray).1 →
          (directoryRead fs index bytes fileArray).1 ≤ max nbytes 0)) ↔
      ∀ dentry, fs.readDentryByIndex (fileArray index).filePosition.toNat = some dentry →
        (dentry.fullName.length : Int) < nbytes := by
  cases found : fs.readDentryByIndex (fileArray index).filePosition.toNat with
  | none =>
      refine ⟨fun _ dentry impossible => absurd impossible (by simp), fun _ bytes => ?_⟩
      rw [directoryRead_none found]
      exact ⟨fun _ _ => rfl, by dsimp only; omega⟩
  | some dentry =>
      constructor
      · rintro stays _ ⟨⟩
        by_contra large
        obtain ⟨buf, after, read, stored, _⟩ := directoryRead_some found fun _ => 1
        have kept := (stays fun _ => 1).1 dentry.fullName.length (by omega)
        rw [read] at kept
        dsimp only at kept
        rw [stored, if_neg (Nat.lt_irrefl _), if_pos rfl] at kept
        exact absurd kept (by decide)
      · intro fits bytes
        have room := fits dentry rfl
        obtain ⟨buf, after, read, stored, _⟩ := directoryRead_some found bytes
        rw [read]
        refine ⟨fun position beyond => ?_, fun _ => by dsimp only; omega⟩
        dsimp only
        rw [stored, if_neg (by omega), if_neg (by omega)]

/-- A read on an open descriptor stays in its buffer exactly under the condition. -/
theorem staysInBuffer_iff (fs : FileSystem) (fd nbytes : Int) (index : Fin 8)
    (tested entered : Console) (state : CallState) (descriptor : fdIndex fd = some index)
    (opened : (state.pcb.fileArray index).flags = .fileOccup)
    (range : -2 ^ 31 ≤ nbytes ∧ nbytes < 2 ^ 31) :
    StaysInBuffer fs fd nbytes tested entered state ↔
      BufferFits fs index nbytes entered state.pcb := by
  have occupied : ¬(state.pcb.fileArray index).flags = .fileAvail := by
    rw [opened]
    decide
  unfold StaysInBuffer BufferFits sysRead
  simp only [descriptor, if_neg occupied]
  cases table : (state.pcb.fileArray index).fileOpsTablePtr with
  | null => simp
  | other address => simp
  | terminalOps =>
      dsimp only
      constructor
      · intro stays
        by_contra overrun
        obtain ⟨result, buf, after, read, nonnegative, large⟩ := terminalRead_overrun index nbytes
          state.pcb.terminalIndex state.console tested entered range overrun fun _ => 0
        have bounded := stays (fun _ => 0) result buf { state with console := after } (by rw [read])
        exact large (bounded.2 nonnegative)
      · intro fits bytes result buf after finished
        cases read : terminalRead index (some bytes) nbytes state.pcb.terminalIndex state.console
            tested entered with
        | none =>
            rw [read] at finished
            cases finished
        | some outcome =>
            obtain ⟨count, stored, left⟩ := outcome
            rw [read] at finished
            cases finished
            exact terminalRead_bounds index nbytes _ _ tested entered range fits read
  | fileOps =>
      simp only [Option.isNone_some, Bool.false_eq_true, false_and, if_false, Option.getD_some,
        Option.map_some]
      constructor
      · intro stays
        by_contra overrun
        obtain ⟨bytes, result, buf, after, read, empty, stored⟩ := fileRead_overrun fs index nbytes
          state.pcb.fileArray range overrun
        have bounded := stays bytes result buf
          { state with pcb := { state.pcb with fileArray := after } } (by rw [read])
        exact stored (bounded.1 0 empty)
      · intro fits bytes result buf after finished
        cases read : fileRead fs index bytes (BitVec.ofInt 32 nbytes) state.pcb.fileArray with
        | none =>
            rw [read] at finished
            cases finished
        | some outcome =>
            rw [read] at finished
            cases finished
            exact fileRead_bounds fs index nbytes _ range fits read
  | directoryOps =>
      simp only [Option.isNone_some, Bool.false_eq_true, false_and, if_false, Option.getD_some,
        Option.map_some]
      rw [← directoryRead_bounds_iff]
      constructor
      · intro stays bytes
        exact stays bytes _ _ _ rfl
      · intro stays bytes result buf after finished
        cases finished
        exact stays bytes
  | rtcOps =>
      refine ⟨fun _ => trivial, fun _ bytes result buf after finished => ?_⟩
      dsimp only at finished
      cases read : rtcRead index state.pcb with
      | none =>
          rw [read] at finished
          cases finished
      | some outcome =>
          rw [read] at finished
          cases finished
          rw [rtcRead, Option.map_eq_some_iff] at read
          obtain ⟨period, _, rfl⟩ := read
          exact ⟨fun _ _ => rfl, fun _ => Int.le_max_right ..⟩

/-- A process that has opened the directory of an image at its first entry. -/
def directoryProcess : CallState where
  pcb := { zeroPcb with
    fileArray := Function.update (initFileArray blank) 2 ⟨.directoryOps, 0, 0, .fileOccup⟩ }
  console := coldMachine.console

theorem shellImage_fullName :
    (shellImage.direntries 0).fullName = [115, 104, 101, 108, 108] := by
  decide +kernel

/-- The name of five bytes needs a buffer of six. -/
theorem staysInBuffer_shellImage :
    StaysInBuffer shellImage 2 6 coldMachine.console coldMachine.console directoryProcess ∧
      ¬StaysInBuffer shellImage 2 5 coldMachine.console coldMachine.console
        directoryProcess := by
  have law (nbytes : Int) (range : -2 ^ 31 ≤ nbytes ∧ nbytes < 2 ^ 31) :=
    staysInBuffer_iff shellImage 2 nbytes 2 coldMachine.console coldMachine.console
      directoryProcess rfl rfl range
  rw [law 6 (by decide), law 5 (by decide)]
  have fits (nbytes : Int) : BufferFits shellImage 2 nbytes coldMachine.console
      directoryProcess.pcb ↔ 5 < nbytes := by
    change (∀ dentry, some (shellImage.direntries 0) = some dentry →
      (dentry.fullName.length : Int) < nbytes) ↔ 5 < nbytes
    simp [shellImage_fullName]
  rw [fits, fits]
  decide

/-- A request for five bytes of a directory stores a sixth byte. -/
theorem directoryRead_not_staysInBuffer :
    ∃ (fd nbytes : Int) (index : Fin 8) (state : CallState), fdIndex fd = some index ∧
      (state.pcb.fileArray index).flags = .fileOccup ∧ (-2 ^ 31 ≤ nbytes ∧ nbytes < 2 ^ 31) ∧
      ¬StaysInBuffer shellImage fd nbytes state.console state.console state := by
  refine ⟨2, 5, 2, directoryProcess, rfl, rfl, by decide, fun stays => ?_⟩
  have kept := (stays (fun _ => 1) _ _ _ rfl).1 5 (by decide)
  revert kept
  decide +kernel

end ComputerSystems.Kernel
