import ComputerSystems.Proof.Kernel.DirectoryLookup
import ComputerSystems.Proof.Kernel.ReadPieces

namespace ComputerSystems.Kernel
open ComputerSystems.Library

/-- The first bytes of an executable file. -/
def magicNumber : List UInt8 := [0x7F, 0x45, 0x4C, 0x46]

/-- A listed image whose regular files have sound inodes. -/
structure ValidImage (fs : FileSystem) : Prop extends ListedImage fs where
  sound : ∀ index < fs.dirCount, (fs.direntries index).filetype = 2 →
    SoundInode fs (fs.direntries index).inodeNum

/-- The string is the full name of a listed regular file. -/
def NamesFile (fs : FileSystem) (name : CString) (index : Nat) : Prop :=
  Names fs name index ∧ (fs.direntries index).filetype = 2

/-- The contents of the file of an entry. -/
def entryData (fs : FileSystem) (index : Nat) : List UInt8 :=
  fileData fs (fs.direntries index).inodeNum

def Executable (fs : FileSystem) (name : CString) : Prop :=
  ∃ index, NamesFile fs name index ∧ 4 ≤ (entryData fs index).length ∧
    (entryData fs index).take 4 = magicNumber

/-- A load accepts exactly the executable files, and it copies an accepted file. -/
structure LoadsProgram (fs : FileSystem) (name : CString) (loaded : Int × (Nat → UInt8)) :
    Prop where
  accepts : loaded.1 = 0 ↔ Executable fs name
  copies : loaded.1 = 0 → ∀ index, NamesFile fs name index →
    (List.range (entryData fs index).length).map loaded.2 = entryData fs index

/-- The memory behind a file shorter than the magic number completes that number. -/
def Completed (fs : FileSystem) (name : CString) (ptr : Nat → UInt8) : Prop :=
  ∃ index, NamesFile fs name index ∧ (entryData fs index).length < 4 ∧
    (List.range 4).map (fun place => (entryData fs index).getD place (ptr place)) = magicNumber

theorem range_map_eq_magicNumber (memory : Nat → UInt8) :
    (List.range 4).map memory = magicNumber ↔
      ¬(memory 0 ≠ 0x7F ∨ memory 1 ≠ 0x45 ∨ memory 2 ≠ 0x4C ∨ memory 3 ≠ 0x46) := by
  simp [List.range_succ, magicNumber]

/-- The memory where a list has been stored over the old contents. -/
theorem range_map_getD {Value : Type*} (values : List Value) (memory : Nat → Value)
    {count : Nat} (inside : count ≤ values.length) :
    (List.range count).map (fun place => values.getD place (memory place)) =
      values.take count := by
  apply List.ext_getElem
  · simp [inside]
  · intro place within _
    have early : place < count := by simpa using within
    simp [List.getElem_take, show place < values.length by omega]

section
variable {fs : FileSystem} {name : CString} {index : Nat}

theorem NamesFile.unique (listed : ListedImage fs) (first : NamesFile fs name index)
    {other : Nat} (second : NamesFile fs name other) : index = other :=
  listed.distinct index first.1.1 other second.1.1 (first.1.2.trans second.1.2.symm)

/-- `read_data` copies a whole sound file over the old contents of the buffer. -/
theorem readData_whole {inode : Nat} (sound : SoundInode fs inode) (buf : Nat → UInt8) :
    ∃ outcome, readData fs (BitVec.ofNat 32 inode) 0 buf
        (BitVec.ofNat 32 (fs.inodeLength inode)) = some outcome ∧
      outcome.result = fs.inodeLength inode ∧
      outcome.buf = fun place => (fileData fs inode).getD place (buf place) := by
  have count := fs.word_lt 4
  have small := fs.word_lt (FileSystem.inodeBlock inode)
  rw [← FileSystem.inodeCount] at count
  rw [← FileSystem.inodeLength] at small
  have number : (BitVec.ofNat 32 inode).toNat = inode :=
    Nat.mod_eq_of_lt (sound.inRange.trans count)
  have size : (BitVec.ofNat 32 (fs.inodeLength inode)).toNat = fs.inodeLength inode :=
    Nat.mod_eq_of_lt small
  have known : SoundInode fs (BitVec.ofNat 32 inode).toNat := by rwa [number]
  have reads := readsFrom_start known
  obtain ⟨outcome, returned, result, stored⟩ :=
    reads.readData (BitVec.ofNat 32 (fs.inodeLength inode)) buf
  have piece : (Reader.start (fileData fs inode)).piece (fs.inodeLength inode) =
      fileData fs inode := by
    rw [Reader.piece, ← fileData_length]
    exact List.take_length
  rw [number, size, piece] at result stored
  refine ⟨outcome, returned, by rw [result, fileData_length], ?_⟩
  funext place
  rw [stored place, List.getD_eq_getElem?_getD]

/-- Without a regular file of the name a load fails at once. -/
theorem loadProgramAt_refused (listed : ListedImage fs)
    (unnamed : ∀ index, ¬NamesFile fs name index) (ptr : Nat → UInt8) :
    loadProgramAt fs name ptr = some (-1, ptr) := by
  unfold loadProgramAt
  by_cases long : 33 ≤ name.bytes.length
  · rw [if_pos long]
  · rw [if_neg long]
    cases found : fs.readDentryByName (some name) with
    | none => rfl
    | some dentry =>
        obtain ⟨index, names, rfl⟩ := listed.names (by omega) found
        exact if_pos fun regular => unnamed index ⟨names, regular⟩

/-- The decision about a regular file is made from the memory after the copy. -/
theorem loadProgramAt_file (valid : ValidImage fs) (named : NamesFile fs name index)
    (ptr : Nat → UInt8) :
    ∃ loaded, loadProgramAt fs name ptr = some loaded ∧
      (loaded.2 = fun place => (entryData fs index).getD place (ptr place)) ∧
      (loaded.1 = 0 ↔ (List.range 4).map loaded.2 = magicNumber) := by
  obtain ⟨outcome, returned, result, stored⟩ :=
    readData_whole (valid.sound index named.1.1 named.2) ptr
  have short := named.1.short
  have small := fs.word_lt (FileSystem.inodeBlock (fs.direntries index).inodeNum)
  rw [← FileSystem.inodeLength] at small
  have complete : outcome.result % 2 ^ 32 = fs.inodeLength (fs.direntries index).inodeNum := by
    rw [result]
    omega
  have loads : loadProgramAt fs name ptr =
      if outcome.buf 0 ≠ 0x7F ∨ outcome.buf 1 ≠ 0x45 ∨ outcome.buf 2 ≠ 0x4C ∨
        outcome.buf 3 ≠ 0x46 then some (-1, outcome.buf) else some (0, outcome.buf) := by
    unfold loadProgramAt
    rw [if_neg (by omega), named.1.lookup valid.toListedImage]
    dsimp only
    rw [if_neg (not_not.2 named.2), returned]
    exact if_neg (not_not.2 complete)
  rw [loads]
  have magic := range_map_eq_magicNumber outcome.buf
  have negative : (-1 : Int) ≠ 0 := by decide
  split_ifs with other
  · exact ⟨_, rfl, stored, iff_of_false negative fun same => magic.1 same other⟩
  · exact ⟨_, rfl, stored, iff_of_true rfl (magic.2 other)⟩

/-- A load is right exactly when no old memory completes a short file. -/
theorem loadProgramAt_iff (valid : ValidImage fs) (name : CString) (ptr : Nat → UInt8) :
    ∃ loaded, loadProgramAt fs name ptr = some loaded ∧
      (LoadsProgram fs name loaded ↔ ¬Completed fs name ptr) := by
  by_cases regular : ∃ index, NamesFile fs name index
  · obtain ⟨index, named⟩ := regular
    obtain ⟨loaded, returned, stored, accepted⟩ := loadProgramAt_file valid named ptr
    refine ⟨loaded, returned, ?_⟩
    constructor
    · rintro ⟨accepts, _⟩ ⟨other, same, short, completed⟩
      obtain rfl := named.unique valid.toListedImage same
      rw [← stored, ← accepted, accepts] at completed
      obtain ⟨third, again, long, _⟩ := completed
      obtain rfl := named.unique valid.toListedImage again
      omega
    · intro incomplete
      constructor
      case accepts =>
        rw [accepted, stored]
        by_cases long : 4 ≤ (entryData fs index).length
        · rw [range_map_getD _ _ long]
          constructor
          · exact fun magic => ⟨index, named, long, magic⟩
          · rintro ⟨other, same, _, magic⟩
            obtain rfl := named.unique valid.toListedImage same
            exact magic
        · constructor
          · exact fun magic => absurd ⟨index, named, Nat.lt_of_not_le long, magic⟩ incomplete
          · rintro ⟨other, same, enough, _⟩
            obtain rfl := named.unique valid.toListedImage same
            exact absurd enough long
      case copies =>
        intro _ other same
        obtain rfl := named.unique valid.toListedImage same
        rw [stored, range_map_getD _ _ (Nat.le_refl _), List.take_length]
  · rw [not_exists] at regular
    refine ⟨_, loadProgramAt_refused valid.toListedImage regular ptr, ?_⟩
    have negative : (-1 : Int) ≠ 0 := by decide
    apply iff_of_true
    · refine ⟨iff_of_false negative ?_, fun success => absurd success negative⟩
      exact fun ⟨index, named, _⟩ => regular index named
    · exact fun ⟨index, named, _⟩ => regular index named

end

/-- A load into the program page is a load at the address of the program image. -/
theorem loadProgram_at {fs : FileSystem} {name : CString} {machine loaded : Machine}
    {result : Int} (finished : loadProgram fs name machine = .ok (result, loaded)) :
    loadProgramAt fs name machine.programImage = some (result, loaded.programImage) := by
  have stored (outcome : ReadOutcome) : Machine.programImage { machine with
      frames := Function.update machine.frames machine.programFrame fun address =>
        if programOffset ≤ address then outcome.buf (address - programOffset)
        else machine.frames machine.programFrame address } = outcome.buf := by
    funext place
    change Function.update machine.frames machine.programFrame _ machine.programFrame _ = _
    rw [Function.update_self, if_pos (Nat.le_add_right ..), Nat.add_sub_cancel_left]
  unfold loadProgram at finished
  unfold loadProgramAt
  by_cases long : 33 ≤ name.bytes.length
  · rw [if_pos long] at finished ⊢
    cases finished
    rfl
  rw [if_neg long] at finished ⊢
  cases found : fs.readDentryByName (some name) with
  | none =>
      rw [found] at finished
      cases finished
      rfl
  | some dentry =>
      rw [found] at finished
      dsimp only at finished ⊢
      by_cases other : dentry.filetype ≠ 2
      · rw [if_pos other] at finished ⊢
        cases finished
        rfl
      rw [if_neg other] at finished ⊢
      cases read : readData fs (BitVec.ofNat 32 dentry.inodeNum) 0 machine.programImage
          (BitVec.ofNat 32 (fs.inodeLength dentry.inodeNum)) with
      | none =>
          rw [read] at finished
          cases finished
      | some outcome =>
          rw [read] at finished
          dsimp only at finished ⊢
          rw [stored outcome] at finished
          split_ifs at finished ⊢ <;> cases finished <;> rw [stored outcome]

/-- An image with one program that has no bytes. -/
def emptyImage : FileSystem :=
  { countedImage with memory := fun address =>
    if address = 4096 then 0 else countedImage.memory address }

theorem emptyImage_valid : ValidImage emptyImage where
  count := by decide +kernel
  named := by decide +kernel
  distinct := by decide +kernel
  known := by decide +kernel
  zero := by
    intro index listed inside position bound
    have counted : countedImage.dirCount = emptyImage.dirCount := by decide +kernel
    have same : emptyImage.byte (64 + 64 * index + position) =
        countedImage.byte (64 + 64 * index + position) := by
      simp only [numFiles] at inside
      apply if_neg
      change (0 + (64 + 64 * index + position)) % 2 ^ 32 ≠ 4096
      omega
    rw [same]
    exact countedImage_listed.zero index (counted.trans_le listed) inside position bound
  sound := by
    intro index listed _
    have first : emptyImage.dirCount = 1 := by decide +kernel
    obtain rfl : index = 0 := by omega
    exact ⟨by decide +kernel, by decide +kernel, by decide +kernel⟩

/-- The memory that an executable left at the place of the next program. -/
def usedMemory (place : Nat) : UInt8 := magicNumber.getD place 0

theorem countedImage_valid : ValidImage countedImage where
  toListedImage := countedImage_listed
  sound := by
    intro index listed _
    have first : countedImage.dirCount = 1 := by decide +kernel
    obtain rfl : index = 0 := by omega
    exact ⟨by decide +kernel, by decide +kernel, by decide +kernel⟩

/-- The program of four bytes is loaded. -/
theorem loadProgramAt_iff_shell :
    ∃ loaded, loadProgramAt countedImage shellName (fun _ => 0) = some loaded ∧
      LoadsProgram countedImage shellName loaded := by
  obtain ⟨loaded, returned, loads⟩ := loadProgramAt_iff countedImage_valid shellName fun _ => 0
  refine ⟨loaded, returned, loads.2 ?_⟩
  rintro ⟨index, named, short, _⟩
  have first : countedImage.dirCount = 1 := by decide +kernel
  obtain rfl : index = 0 := by
    have counted := named.1.1
    omega
  exact absurd short (by decide +kernel)

/-- A file without bytes is accepted over the memory of an earlier program. -/
theorem loadProgramAt_empty_accepted :
    ValidImage emptyImage ∧ entryData emptyImage 0 = [] ∧
      ∃ loaded, loadProgramAt emptyImage shellName usedMemory = some loaded ∧ loaded.1 = 0 ∧
        ¬LoadsProgram emptyImage shellName loaded := by
  refine ⟨emptyImage_valid, by decide +kernel, _, rfl, by decide +kernel, fun loads => ?_⟩
  obtain ⟨index, named, long, _⟩ := loads.accepts.1 (by decide +kernel)
  have first : emptyImage.dirCount = 1 := by decide +kernel
  obtain rfl : index = 0 := by
    have counted := named.1.1
    omega
  exact absurd long (by decide +kernel)

end ComputerSystems.Kernel
