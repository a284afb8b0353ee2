import ComputerSystems.Library.Run
import ComputerSystems.Proof.Kernel.ReadData
import ComputerSystems.Proof.Kernel.OpenLaw

namespace ComputerSystems.Kernel
open ComputerSystems.Library

/-- The position of an RTC entry is a power of two between 2 and 1024. -/
def RtcRate (position : Word) : Prop :=
  ∃ exponent, 1 ≤ exponent ∧ exponent ≤ 10 ∧ position = BitVec.ofNat 32 (2 ^ exponent)

/-- An entry after the standard ones is free and zero, or open with a table of the file system. -/
inductive SoundEntry : FileT → Prop where
  | free : SoundEntry ⟨.null, 0, 0, .fileAvail⟩
  | file (inode position : Word) : SoundEntry ⟨.fileOps, inode, position, .fileOccup⟩
  | directory (inode position : Word) : SoundEntry ⟨.directoryOps, inode, position, .fileOccup⟩
  | rtc (inode position : Word) (rate : RtcRate position) :
      SoundEntry ⟨.rtcOps, inode, position, .fileOccup⟩

/-- The invariant of a descriptor table. -/
structure SoundTable (fileArray : FileArray) : Prop where
  standard : ∀ index < 2, (fileArray index).flags = .fileOccup ∧
    (fileArray index).fileOpsTablePtr = .terminalOps
  others : ∀ index, 2 ≤ index → SoundEntry (fileArray index)

theorem soundTable_initFileArray : SoundTable (initFileArray blank) where
  standard index small := by
    have standardIndex : index = 0 ∨ index = 1 := by omega
    simp [initFileArray, standardIndex]
  others index large := by
    have notStandard : ¬ (index = 0 ∨ index = 1) := by omega
    rw [initFileArray, if_neg notStandard]
    exact .free

theorem SoundTable.update {fileArray : FileArray} (sound : SoundTable fileArray) {index : Fin 8}
    (large : 2 ≤ index) {entry : FileT} (soundEntry : SoundEntry entry) :
    SoundTable (Function.update fileArray index entry) where
  standard other small := by
    rw [Function.update_of_ne (by omega)]
    exact sound.standard other small
  others other other_large := by
    by_cases same : other = index
    · rw [same, Function.update_self]
      exact soundEntry
    · rw [Function.update_of_ne same]
      exact sound.others other other_large

/-- Only the standard entries use the terminal. -/
theorem SoundTable.large {fileArray : FileArray} (sound : SoundTable fileArray) {index : Fin 8}
    (other : (fileArray index).fileOpsTablePtr ≠ .terminalOps) : 2 ≤ index := by
  by_contra small
  exact other (sound.standard index (by omega)).2

/-- No open entry holds a pointer outside the four tables. -/
theorem SoundTable.known {fileArray : FileArray} (sound : SoundTable fileArray) (index : Fin 8)
    (opened : (fileArray index).flags ≠ .fileAvail) :
    (fileArray index).fileOpsTablePtr ≠ .null ∧
      ∀ address, (fileArray index).fileOpsTablePtr ≠ .other address := by
  by_cases large : 2 ≤ index
  · have entry := sound.others index large
    generalize fileArray index = found at entry opened
    cases entry with
    | free => exact absurd rfl opened
    | file _ _ => simp
    | directory _ _ => simp
    | rtc _ _ _ => simp
  · rw [(sound.standard index (by omega)).2]
    simp

theorem SoundTable.rate {fileArray : FileArray} (sound : SoundTable fileArray) {index : Fin 8}
    (clock : (fileArray index).fileOpsTablePtr = .rtcOps) :
    RtcRate (fileArray index).filePosition := by
  have entry := sound.others index (sound.large (by rw [clock]; simp))
  generalize fileArray index = found at entry clock
  cases entry with
  | free => cases clock
  | file _ _ => cases clock
  | directory _ _ => cases clock
  | rtc _ _ rate => exact rate

theorem soundEntry_openedEntry (dentry : Dentry) : SoundEntry (openedEntry dentry) := by
  unfold openedEntry
  split_ifs
  · exact .rtc _ _ ⟨1, by decide, by decide, by decide⟩
  · exact .directory _ _
  · exact .file _ _

theorem SoundTable.allocate {fileArray : FileArray} (sound : SoundTable fileArray)
    (dentry : Dentry) : SoundTable (allocate dentry fileArray).2 := by
  rcases (freeSlots fileArray).eq_empty_or_nonempty with full | free
  · rw [allocate_full dentry fileArray full]
    exact sound
  · obtain ⟨index, _, member, allocated, _⟩ := allocate_free dentry fileArray free
    rw [allocated]
    exact sound.update ((mem_freeSlots fileArray index).1 member).1 (soundEntry_openedEntry dentry)

theorem SoundTable.sysOpen {fileArray : FileArray} (sound : SoundTable fileArray)
    (fs : FileSystem) (filename : Option CString) :
    SoundTable (sysOpen fs filename fileArray).2 := by
  by_cases openable : ∃ dentry, Openable fs filename dentry
  · obtain ⟨dentry, opens⟩ := openable
    rw [sysOpen_openable opens]
    split_ifs
    · exact sound.allocate dentry
    · exact (sound.allocate dentry).allocate dentry
    · exact sound.allocate dentry
  · rw [sysOpen_rejected (fun dentry opens => openable ⟨dentry, opens⟩)]
    exact sound

/-- A call leaves a sound table, or it stops for a reason that lies outside the table. -/
def SoundCall {Value : Type} (fileArray : Value → FileArray) : Except Stop Value → Prop
  | .ok value => SoundTable (fileArray value)
  | .error stop => stop ≠ .wildCall ∧ stop ≠ .divideError

theorem SoundCall.map {First Second : Type} {firstArray : First → FileArray}
    {secondArray : Second → FileArray} {call : Except Stop First} (next : First → Second)
    (same : ∀ value, secondArray (next value) = firstArray value)
    (sound : SoundCall firstArray call) : SoundCall secondArray (call.map next) := by
  cases call with
  | ok value =>
      change SoundTable (secondArray (next value))
      rw [same]
      exact sound
  | error stop => exact sound

/-- A close frees its entry or changes nothing, and it always calls a known table. -/
theorem SoundTable.sysClose {fileArray : FileArray} (sound : SoundTable fileArray) (fd : Int) :
    SoundCall Prod.snd (sysClose fd fileArray) := by
  unfold Kernel.sysClose
  by_cases small : fd < 2
  · rw [if_pos small]
    exact sound
  rw [if_neg small]
  cases fdIndex fd with
  | none => exact sound
  | some index =>
      dsimp only
      by_cases free : (fileArray index).flags = .fileAvail
      · rw [if_pos free]
        exact sound
      rw [if_neg free]
      have known := sound.known index free
      have freed (other : (fileArray index).fileOpsTablePtr ≠ .terminalOps) :
          SoundTable (Function.update fileArray index ⟨.null, 0, 0, .fileAvail⟩) :=
        sound.update (sound.large other) .free
      cases table : (fileArray index).fileOpsTablePtr with
      | null => exact absurd table known.1
      | other address => exact absurd table (known.2 address)
      | terminalOps => exact sound
      | fileOps =>
          change SoundTable (fileClose index fileArray).2
          rw [fileClose, if_neg free]
          exact freed (by simp [table])
      | directoryOps =>
          change SoundTable (fileClose index fileArray).2
          rw [fileClose, if_neg free]
          exact freed (by simp [table])
      | rtcOps =>
          change SoundTable (rtcClose index fileArray).2
          rw [rtcClose, if_neg free]
          exact freed (by simp [table])

/-- An entry that only moves its position keeps its table and stays open. -/
theorem SoundTable.move {fileArray : FileArray} (sound : SoundTable fileArray) {index : Fin 8}
    (large : 2 ≤ index) (position : Word)
    (rate : (fileArray index).fileOpsTablePtr = .rtcOps → RtcRate position)
    (opened : (fileArray index).flags ≠ .fileAvail) :
    SoundTable (Function.update fileArray index
      { fileArray index with filePosition := position }) := by
  apply sound.update large
  have entry := sound.others index large
  generalize fileArray index = found at entry opened rate
  cases entry with
  | free => exact absurd rfl opened
  | file inode _ => exact .file inode position
  | directory inode _ => exact .directory inode position
  | rtc inode _ _ => exact .rtc inode position (rate rfl)

/-- The rate bounds of `rtc_write` leave exactly the powers of two. -/
theorem rtcRate_of_checked (freq : Int) (low : 2 ≤ freq) (high : freq ≤ 1024)
    (single : freq.toNat &&& (freq.toNat - 1) = 0) : RtcRate (BitVec.ofInt 32 freq) := by
  obtain ⟨rate, rfl⟩ := Int.eq_ofNat_of_zero_le (by omega : 0 ≤ freq)
  rw [Int.toNat_natCast] at single
  obtain ⟨exponent, power⟩ :=
    (Nat.and_sub_one_eq_zero_iff_isPowerOfTwo (by omega)).1 single
  subst power
  have lowPower : 2 ^ 1 ≤ 2 ^ exponent := by exact_mod_cast low
  have highPower : 2 ^ exponent ≤ 2 ^ 10 := by exact_mod_cast high
  exact ⟨exponent, (Nat.pow_le_pow_iff_right (by decide)).1 lowPower,
    (Nat.pow_le_pow_iff_right (by decide)).1 highPower, BitVec.ofInt_natCast 32 _⟩

theorem SoundTable.rtcWrite {fileArray : FileArray} (sound : SoundTable fileArray) {index : Fin 8}
    (clock : (fileArray index).fileOpsTablePtr = .rtcOps)
    (opened : (fileArray index).flags ≠ .fileAvail) (buf : Option (Nat → UInt8)) (nbytes : Int) :
    SoundTable (rtcWrite index buf nbytes fileArray).2 := by
  unfold Kernel.rtcWrite
  cases buf with
  | none => exact sound
  | some bytes =>
      dsimp only
      split_ifs with size range
      · exact sound
      · exact sound
      · push Not at range
        exact sound.move (sound.large (by rw [clock]; simp)) _
          (fun _ => rtcRate_of_checked _ range.1 range.2.1 range.2.2) opened

/-- The division of `rtc_read` is defined and exact, and its quotient lies between 1 and 512. -/
theorem rtcPeriod_of_rate {entry : FileT} (rate : RtcRate entry.filePosition) :
    ∃ period, rtcPeriod entry = some period ∧ 1 ≤ period ∧ period ≤ 512 ∧
      period * entry.filePosition.toInt = 1024 := by
  obtain ⟨exponent, low, high, position⟩ := rate
  unfold rtcPeriod
  rw [position]
  interval_cases exponent <;> exact ⟨_, rfl, by decide, by decide, by decide⟩

/-- The interrupts that end the wait of `rtc_read` leave the table as it is. -/
theorem rtcWait_fileArray (pcb : Pcb) : (rtcWait pcb).fileArray = pcb.fileArray := by
  have waited := whileLoop_rule (fun current : Pcb => current.rtcCount != 0) rtcTick
    (fun current => current.fileArray = pcb.fileArray) (fun current => current.rtcCount)
    (by
      intro current same running
      have counting : current.rtcCount ≠ 0 := by simpa using running
      unfold rtcTick
      rw [if_pos counting]
      exact ⟨same, Nat.sub_lt (Nat.pos_of_ne_zero counting) Nat.one_pos⟩)
    pcb.rtcCount pcb rfl (le_refl _)
  exact waited.1

/-- The drivers for files keep the table sound because they only move the position. -/
theorem SoundTable.fileRead {fileArray : FileArray} (sound : SoundTable fileArray) {index : Fin 8}
    (file : (fileArray index).fileOpsTablePtr = .fileOps)
    (opened : (fileArray index).flags ≠ .fileAvail) (fs : FileSystem) (buf : Nat → UInt8)
    (nbytes : Word) {read : Int × (Nat → UInt8) × FileArray}
    (finished : Kernel.fileRead fs index buf nbytes fileArray = some read) :
    SoundTable read.2.2 := by
  unfold Kernel.fileRead at finished
  split_ifs at finished
  · cases finished
    exact sound
  · rw [Option.map_eq_some_iff] at finished
    obtain ⟨outcome, _, rfl⟩ := finished
    exact sound.move (sound.large (by simp [file])) _ (by simp [file]) opened

theorem SoundTable.directoryRead {fileArray : FileArray} (sound : SoundTable fileArray)
    {index : Fin 8} (directory : (fileArray index).fileOpsTablePtr = .directoryOps)
    (opened : (fileArray index).flags ≠ .fileAvail) (fs : FileSystem) (buf : Nat → UInt8) :
    SoundTable (Kernel.directoryRead fs index buf fileArray).2.2 := by
  unfold Kernel.directoryRead
  cases fs.readDentryByIndex (fileArray index).filePosition.toNat with
  | none => exact sound
  | some newDent =>
      exact sound.move (sound.large (by simp [directory])) _ (by simp [directory]) opened

/-- A read stops only to wait for the keyboard or at the store through a null pointer. -/
theorem SoundTable.sysRead {state : CallState} (sound : SoundTable state.pcb.fileArray)
    (fs : FileSystem) (fd : Int) (buf : Option (Nat → UInt8)) (nbytes : Int)
    (tested entered : Console) :
    SoundCall (fun read => read.2.2.pcb.fileArray)
      (sysRead fs fd buf nbytes tested entered state) := by
  unfold Kernel.sysRead
  cases fdIndex fd with
  | none => exact sound
  | some index =>
      dsimp only
      by_cases free : (state.pcb.fileArray index).flags = .fileAvail
      · rw [if_pos free]
        exact sound
      rw [if_neg free]
      have known := sound.known index free
      cases table : (state.pcb.fileArray index).fileOpsTablePtr with
      | null => exact absurd table known.1
      | other address => exact absurd table (known.2 address)
      | terminalOps =>
          dsimp only
          cases terminalRead index buf nbytes state.pcb.terminalIndex state.console tested entered
          · exact ⟨by simp, by simp⟩
          · exact sound
      | fileOps =>
          dsimp only
          split_ifs with missing
          · exact ⟨by simp, by simp⟩
          · cases finished : Kernel.fileRead fs index (buf.getD fun _ => 0) (BitVec.ofInt 32 nbytes)
              state.pcb.fileArray with
            | none => exact ⟨by simp, by simp⟩
            | some read => exact sound.fileRead table free fs _ _ finished
      | directoryOps =>
          dsimp only
          split_ifs with missing
          · exact ⟨by simp, by simp⟩
          · exact sound.directoryRead table free fs _
      | rtcOps =>
          obtain ⟨period, defined, _⟩ := rtcPeriod_of_rate (sound.rate table)
          simp only [rtcRead, defined, Option.map_some]
          change SoundTable (rtcWait _).fileArray
          rw [rtcWait_fileArray]
          exact sound

theorem SoundTable.sysWrite {state : CallState} (sound : SoundTable state.pcb.fileArray)
    (fd : Int) (buf : Option (Nat → UInt8)) (nbytes : Int) :
    SoundCall (fun written => written.2.pcb.fileArray) (sysWrite fd buf nbytes state) := by
  unfold Kernel.sysWrite
  cases fdIndex fd with
  | none => exact sound
  | some index =>
      dsimp only
      by_cases free : (state.pcb.fileArray index).flags = .fileAvail
      · rw [if_pos free]
        exact sound
      rw [if_neg free]
      have known := sound.known index free
      cases table : (state.pcb.fileArray index).fileOpsTablePtr with
      | null => exact absurd table known.1
      | other address => exact absurd table (known.2 address)
      | terminalOps => exact sound
      | fileOps => exact sound
      | directoryOps => exact sound
      | rtcOps => exact sound.rtcWrite table free buf nbytes

/-- Every file call keeps the table sound, whatever its arguments are. -/
theorem SoundTable.fileCall {state : CallState} (sound : SoundTable state.pcb.fileArray)
    (fs : FileSystem) (call : FileCall) :
    SoundCall (fun next => next.pcb.fileArray) (fileCall fs state call) := by
  cases call with
  | sysOpen filename => exact sound.sysOpen fs filename
  | sysClose fd => exact (sound.sysClose fd).map _ fun _ => rfl
  | sysRead fd buf nbytes called tested entered =>
      have called := @SoundTable.sysRead { state with console := called } sound fs fd buf
        nbytes tested entered
      exact called.map _ fun _ => rfl
  | sysWrite fd buf nbytes called =>
      have called := @SoundTable.sysWrite { state with console := called } sound fd buf nbytes
      exact called.map _ fun _ => rfl

/-- After any sequence of file calls the table is sound and every RTC entry divides exactly, and
no call in the sequence goes through a foreign table or divides by zero. -/
theorem fileCalls_sound (fs : FileSystem) (pcb : Pcb) (console : Console)
    (calls : List FileCall) :
    match run (fileCall fs) (freshProcess pcb console) calls with
    | .ok final => SoundTable final.pcb.fileArray ∧
        ∀ index, (final.pcb.fileArray index).fileOpsTablePtr = .rtcOps →
          RtcRate (final.pcb.fileArray index).filePosition ∧
          ∃ period, rtcPeriod (final.pcb.fileArray index) = some period ∧
            1 ≤ period ∧ period ≤ 512 ∧
            period * (final.pcb.fileArray index).filePosition.toInt = 1024
    | .error stop => stop ≠ .wildCall ∧ stop ≠ .divideError := by
  have initial : SoundTable (freshProcess pcb console).pcb.fileArray := soundTable_initFileArray
  have allowed := along_true (fileCall fs) (freshProcess pcb console) calls
  have step (state : CallState) (call : FileCall) (sound : SoundTable state.pcb.fileArray) :=
    sound.fileCall fs call
  have kept (state : CallState) (call : FileCall) (next : CallState)
      (sound : SoundTable state.pcb.fileArray) (_ : True)
      (called : fileCall fs state call = .ok next) : SoundTable next.pcb.fileArray := by
    have result := step state call sound
    rw [called] at result
    exact result
  cases finished : run (fileCall fs) (freshProcess pcb console) calls with
  | ok final =>
      have sound := run_invariant (fun state => SoundTable state.pcb.fileArray) kept initial
        allowed finished
      exact ⟨sound, fun index clock => ⟨sound.rate clock, rtcPeriod_of_rate (sound.rate clock)⟩⟩
  | error stop =>
      apply run_stops (fun state => SoundTable state.pcb.fileArray)
        (fun stop => stop ≠ .wildCall ∧ stop ≠ .divideError) kept _ initial allowed finished
      intro state call stop sound _ stopped
      have result := step state call sound
      rw [stopped] at result
      exact result

end ComputerSystems.Kernel
