import ComputerSystems.Proof.Kernel.DirectoryNames
import ComputerSystems.Proof.Kernel.OpenLaw
import ComputerSystems.Proof.Kernel.ProcessTable

namespace ComputerSystems.Kernel
open ComputerSystems.Library

/-- The first field of the boot block counts the directory entries. -/
def FileSystem.dirCount (fs : FileSystem) : Nat := fs.word 0

/-- The listed entries have names that are present and distinct and one of the three types, and
all other entries are zero. -/
structure ListedImage (fs : FileSystem) : Prop where
  count : fs.dirCount ≤ numFiles
  named : ∀ index < fs.dirCount, (fs.direntries index).fullName ≠ []
  distinct : ∀ index < fs.dirCount, ∀ other < fs.dirCount,
    (fs.direntries index).fullName = (fs.direntries other).fullName → index = other
  known : ∀ index < fs.dirCount, (fs.direntries index).filetype ≤ 2
  zero : ∀ index, fs.dirCount ≤ index → index < numFiles → ∀ position < 64,
    fs.byte (64 + 64 * index + position) = 0

/-- The string is the full name of a listed entry. -/
def Names (fs : FileSystem) (name : CString) (index : Nat) : Prop :=
  index < fs.dirCount ∧ (fs.direntries index).fullName = name.bytes

section
variable {fs : FileSystem} {name : CString} {index : Nat}

/-- The name of an entry that is zero is empty. -/
theorem ListedImage.unnamed (listed : ListedImage fs) (beyond : fs.dirCount ≤ index)
    (inside : index < numFiles) : (fs.direntries index).fullName = [] := by
  apply Dentry.fullName_eq_nil
  exact listed.zero index beyond inside 0 (by decide)

theorem Names.ne_nil (listed : ListedImage fs) (names : Names fs name index) :
    name.bytes ≠ [] := by
  rw [← names.2]
  exact listed.named index names.1

theorem Names.short (names : Names fs name index) : name.bytes.length ≤ 32 := by
  rw [← names.2]
  exact (fs.direntries index).fullName_length_le

theorem Names.lookup (listed : ListedImage fs) (names : Names fs name index) :
    fs.readDentryByName (some name) = some (fs.direntries index) := by
  have whole : name.bytes.take filenameLen = name.bytes := List.take_of_length_le names.short
  rw [readDentryByName_eq_some, whole]
  have count := listed.count
  refine ⟨names.ne_nil listed, index, names.1.trans_le count, rfl, names.2, ?_⟩
  intro earlier before same
  have listedToo := before.trans names.1
  have equal := listed.distinct earlier listedToo index names.1 (same.trans names.2.symm)
  omega

/-- A string that is short enough is found only as the name of a listed entry. -/
theorem ListedImage.names (listed : ListedImage fs) {dentry : Dentry}
    (short : name.bytes.length ≤ 32)
    (found : fs.readDentryByName (some name) = some dentry) :
    ∃ index, Names fs name index ∧ dentry = fs.direntries index := by
  rw [readDentryByName_eq_some, List.take_of_length_le (by simpa using short)] at found
  obtain ⟨present, index, inside, rfl, matched, _⟩ := found
  refine ⟨index, ⟨?_, matched⟩, rfl⟩
  by_contra beyond
  rw [listed.unnamed (Nat.le_of_not_lt beyond) inside] at matched
  exact present matched.symm

theorem Names.openable (listed : ListedImage fs) (names : Names fs name index) :
    Openable fs (some name) (fs.direntries index) :=
  ⟨⟨name, rfl, names.short⟩, names.lookup listed, listed.known index names.1⟩

theorem ListedImage.rejected (listed : ListedImage fs) (unknown : ∀ index, ¬Names fs name index)
    (dentry : Dentry) : ¬Openable fs (some name) dentry := by
  intro opens
  obtain ⟨other, same, short⟩ := opens.short
  obtain rfl := Option.some.inj same
  obtain ⟨index, names, _⟩ := listed.names short opens.resolves
  exact unknown index names

end

/-- An open succeeds exactly for the full name of a listed entry, and the descriptor carries the
type and the inode of that entry. -/
structure OpensExactly (fs : FileSystem) (name : CString) (opened : Int × FileArray) : Prop where
  succeeds : 0 ≤ opened.1 ↔ ∃ index, Names fs name index
  fails : (¬∃ index, Names fs name index) → opened = (-1, initFileArray blank)
  carries : ∀ index, Names fs name index → ∃ descriptor : Fin 8,
    opened.1 = (descriptor.val : Int) ∧
      opened.2 descriptor = openedEntry (fs.direntries index)

theorem allocate_carries (dentry : Dentry) (fileArray : FileArray)
    (free : (freeSlots fileArray).Nonempty) : ∃ descriptor : Fin 8,
      (allocate dentry fileArray).1 = (descriptor.val : Int) ∧
        (allocate dentry fileArray).2 descriptor = openedEntry dentry := by
  obtain ⟨descriptor, _, _, allocated, _⟩ := allocate_free dentry fileArray free
  rw [allocated]
  exact ⟨descriptor, rfl, Function.update_self ..⟩

/-- The empty table has room for two allocations. -/
theorem allocate_twice (dentry : Dentry) :
    (freeSlots (allocate dentry (initFileArray blank)).2).Nonempty := by
  have six := freeSlots_initFileArray
  have free : (freeSlots (initFileArray blank)).Nonempty := Finset.card_pos.1 (by omega)
  obtain ⟨descriptor, _, member, _, remaining⟩ := allocate_free dentry _ free
  rw [remaining, ← Finset.card_pos, Finset.card_erase_of_mem member]
  omega

/-- An operation that follows the allocation of the found entry opens exactly the listed names. -/
theorem ListedImage.opensExactly {fs : FileSystem} (listed : ListedImage fs) (name : CString)
    {opened : Int × FileArray}
    (rejected : (∀ dentry, ¬Openable fs (some name) dentry) → opened = (-1, initFileArray blank))
    (allocated : ∀ dentry, Openable fs (some name) dentry → ∃ descriptor : Fin 8,
      opened.1 = (descriptor.val : Int) ∧ opened.2 descriptor = openedEntry dentry) :
    OpensExactly fs name opened := by
  have fails : (¬∃ index, Names fs name index) → opened = (-1, initFileArray blank) := by
    intro unknown
    exact rejected (listed.rejected (not_exists.1 unknown))
  have carries index (names : Names fs name index) :=
    allocated (fs.direntries index) (names.openable listed)
  refine ⟨⟨fun success => ?_, fun ⟨index, names⟩ => ?_⟩, fails, carries⟩
  · by_contra unknown
    rw [fails unknown] at success
    exact absurd success (by decide)
  · obtain ⟨descriptor, result, _⟩ := carries index names
    rw [result]
    exact Int.natCast_nonneg _

theorem fileOpen_opensExactly {fs : FileSystem} (listed : ListedImage fs) (name : CString) :
    OpensExactly fs name (fileOpen fs (some name) (initFileArray blank)) := by
  apply listed.opensExactly name
  · exact fun rejected => fileOpen_rejected rejected _
  · intro dentry opens
    rw [fileOpen_openable opens]
    exact allocate_carries dentry _ (Finset.card_pos.1 (by rw [freeSlots_initFileArray]; decide))

theorem sysOpen_opensExactly {fs : FileSystem} (listed : ListedImage fs) (name : CString) :
    OpensExactly fs name (sysOpen fs (some name) (initFileArray blank)) := by
  apply listed.opensExactly name
  · exact fun rejected => sysOpen_rejected rejected _
  · intro dentry opens
    rw [sysOpen_openable opens]
    have once := allocate_carries dentry (initFileArray blank)
      (Finset.card_pos.1 (by rw [freeSlots_initFileArray]; decide))
    split
    · obtain ⟨descriptor, result, _⟩ := once
      rw [if_neg (by rw [result]; omega)]
      exact allocate_carries dentry _ (allocate_twice dentry)
    · exact once

/-- The part of `load_program` after the lookup copies one file. -/
def loadFile (fs : FileSystem) (inode : Nat) (machine : Machine) : Except Stop (Int × Machine) :=
  let size := fs.inodeLength inode
  match readData fs (BitVec.ofNat 32 inode) 0 machine.programImage (BitVec.ofNat 32 size) with
  | none => .error .waiting
  | some outcome =>
      if outcome.loads.any (Load.reaches (mb4 - programOffset)) then .error .pageFault
      else
        let loaded := { machine with
          frames := Function.update machine.frames machine.programFrame fun address =>
            if programOffset ≤ address then outcome.buf (address - programOffset)
            else machine.frames machine.programFrame address }
        if outcome.result % 2 ^ 32 ≠ size then .ok (-1, loaded)
        else if loaded.programImage 0 ≠ 0x7F ∨ loaded.programImage 1 ≠ 0x45 ∨
            loaded.programImage 2 ≠ 0x4C ∨ loaded.programImage 3 ≠ 0x46 then
          .ok (-1, loaded)
        else .ok (0, loaded)

/-- A load is refused at once, or it copies the file with the full name. -/
def LoadsExactly (fs : FileSystem) (name : CString) : Prop :=
  ∀ machine, loadProgram fs name machine = .ok (-1, machine) ∨
    ∃ index, Names fs name index ∧ (fs.direntries index).filetype = 2 ∧
      loadProgram fs name machine = loadFile fs (fs.direntries index).inodeNum machine

theorem loadProgram_loadsExactly {fs : FileSystem} (listed : ListedImage fs) (name : CString) :
    LoadsExactly fs name := by
  intro machine
  unfold loadProgram
  by_cases long : 33 ≤ name.bytes.length
  · rw [if_pos long]
    exact .inl rfl
  · rw [if_neg long]
    cases found : fs.readDentryByName (some name) with
    | none => exact .inl rfl
    | some dentry =>
        obtain ⟨index, names, rfl⟩ := listed.names (by omega) found
        by_cases regular : (fs.direntries index).filetype = 2
        · refine .inr ⟨index, names, regular, ?_⟩
          dsimp only
          rw [if_neg (not_not.2 regular)]
          rfl
        · left
          dsimp only
          rw [if_pos regular]

/-- The descriptor table after a number of directory reads, each with its own buffer. -/
def listingTable (fs : FileSystem) (fd : Fin 8) (bufs : Nat → Nat → UInt8)
    (fileArray : FileArray) : Nat → FileArray
  | 0 => fileArray
  | count + 1 =>
      (directoryRead fs fd (bufs count) (listingTable fs fd bufs fileArray count)).2.2

/-- The string that one directory read of a listing leaves in its buffer. -/
def listedName (fs : FileSystem) (fd : Fin 8) (bufs : Nat → Nat → UInt8)
    (fileArray : FileArray) (index : Nat) : CString :=
  CString.ofMemory ((List.range (filenameLen + 1)).map
    (directoryRead fs fd (bufs index) (listingTable fs fd bufs fileArray index)).2.1)

/-- The position of the descriptor counts the reads. -/
theorem listingTable_position (fs : FileSystem) (fd : Fin 8) (bufs : Nat → Nat → UInt8)
    {fileArray : FileArray} (start : (fileArray fd).filePosition = 0) {count : Nat}
    (inside : count ≤ numFiles) :
    ((listingTable fs fd bufs fileArray count) fd).filePosition.toNat = count := by
  induction count with
  | zero =>
      rw [listingTable, start]
      rfl
  | succ count ih =>
      have before := ih (Nat.le_of_succ_le inside)
      have found : fs.readDentryByIndex
          ((listingTable fs fd bufs fileArray count) fd).filePosition.toNat =
            some (fs.direntries count) := by
        rw [before]
        exact if_neg (Nat.not_le_of_lt inside)
      obtain ⟨buf, after, read, _, rfl⟩ := directoryRead_some found (bufs count)
      rw [listingTable, read]
      dsimp only
      simp only [numFiles] at inside
      rw [Function.update_self, BitVec.toNat_add, before]
      change (count + 1) % 2 ^ 32 = count + 1
      omega

/-- Each directory read delivers the full name of its entry with a terminator. -/
theorem listedName_bytes (fs : FileSystem) (fd : Fin 8) (bufs : Nat → Nat → UInt8)
    {fileArray : FileArray} (start : (fileArray fd).filePosition = 0) {index : Nat}
    (inside : index < numFiles) :
    (listedName fs fd bufs fileArray index).bytes = (fs.direntries index).fullName := by
  have position := listingTable_position fs fd bufs start (Nat.le_of_lt inside)
  have found : fs.readDentryByIndex
      ((listingTable fs fd bufs fileArray index) fd).filePosition.toNat =
        some (fs.direntries index) := by
    rw [position]
    exact if_neg (Nat.not_le_of_lt inside)
  obtain ⟨buf, after, read, stored, _⟩ := directoryRead_some found (bufs index)
  have size := (fs.direntries index).fullName_length_le
  have cut : (CString.ofMemory ((List.range' 0 (filenameLen + 1)).map buf)).bytes =
      field (· == 0) buf (filenameLen + 1) 0 := takeWhile_range' _ _
  unfold listedName
  rw [read, List.range_eq_range', cut]
  apply field_eq
  · exact size.trans (by decide)
  · intro value member
    apply beq_false_of_ne
    rintro rfl
    exact (fs.direntries index).fullName_noTerminator member
  · intro place inside
    rw [Nat.zero_add, stored, if_pos inside]
    exact (field_getElem? filenameLen 0 place inside).trans (by rw [Nat.zero_add])
  · intro _
    rw [Nat.zero_add, stored, if_neg (Nat.lt_irrefl _), if_pos rfl]
    rfl

/-- The names that a directory lists are the names that open its entries. -/
theorem directory_inverse (fs : FileSystem) (listed : ListedImage fs) :
    (∀ name, OpensExactly fs name (fileOpen fs (some name) (initFileArray blank)) ∧
      OpensExactly fs name (sysOpen fs (some name) (initFileArray blank)) ∧
      LoadsExactly fs name) ∧
    ∀ (fd : Fin 8) (bufs : Nat → Nat → UInt8) (fileArray : FileArray),
      (fileArray fd).filePosition = 0 → ∀ index < fs.dirCount,
        Names fs (listedName fs fd bufs fileArray index) index ∧
        fs.readDentryByName (some (listedName fs fd bufs fileArray index)) =
          some (fs.direntries index) ∧
        ∃ descriptor : Fin 8,
          (sysOpen fs (some (listedName fs fd bufs fileArray index)) (initFileArray blank)).1 =
              (descriptor.val : Int) ∧
            (sysOpen fs (some (listedName fs fd bufs fileArray index))
              (initFileArray blank)).2 descriptor = openedEntry (fs.direntries index) := by
  constructor
  · intro name
    exact ⟨fileOpen_opensExactly listed name, sysOpen_opensExactly listed name,
      loadProgram_loadsExactly listed name⟩
  · intro fd bufs fileArray start index inside
    have bytes := listedName_bytes fs fd bufs start (inside.trans_le listed.count)
    have names : Names fs (listedName fs fd bufs fileArray index) index := ⟨inside, bytes.symm⟩
    exact ⟨names, names.lookup listed, (sysOpen_opensExactly listed _).carries index names⟩

/-- The image holds zeros between its directory entry and its first data block. -/
theorem shellImage_zero {address : Nat} (low : 97 ≤ address) (high : address < 4096) :
    shellImage.memory address = 0 := by
  have absent : ([(4, 1), (8, 1), (64, 115), (65, 104), (66, 101), (67, 108), (68, 108),
      (96, 2), (4096, 4), (8192, 0x7F), (8193, 0x45), (8194, 0x4C), (8195, 0x46)] :
        List (Nat × UInt8)).lookup address = none := by
    rw [List.lookup_eq_none_iff]
    simp
    omega
  show (List.lookup address _).getD 0 = 0
  rw [absent]
  rfl

/-- The image with one program and the count of its entries. -/
def countedImage : FileSystem :=
  { shellImage with memory := fun address =>
    if address = 0 then 1 else shellImage.memory address }

theorem countedImage_listed : ListedImage countedImage where
  count := by decide +kernel
  named := by decide +kernel
  distinct := by decide +kernel
  known := by decide +kernel
  zero := by
    intro index listed inside position bound
    have first : countedImage.dirCount = 1 := by decide +kernel
    dsimp only [numFiles] at inside
    have wrapped : (shellImage.fsPtr + (64 + 64 * index + position)) % 2 ^ 32 =
        64 + 64 * index + position := by
      dsimp only [shellImage]
      omega
    show (if (shellImage.fsPtr + (64 + 64 * index + position)) % 2 ^ 32 = 0 then 1 else
      shellImage.memory ((shellImage.fsPtr + (64 + 64 * index + position)) % 2 ^ 32)) = 0
    rw [wrapped, if_neg (by omega)]
    exact shellImage_zero (by omega) (by omega)

/-- The full name of the program opens it, and its first byte does not. -/
theorem directory_inverse_shell :
    0 ≤ (sysOpen countedImage (some shellName) (initFileArray blank)).1 ∧
      ¬0 ≤ (sysOpen countedImage (some ⟨[115], by decide⟩) (initFileArray blank)).1 := by
  have opens (name : CString) :=
    ((directory_inverse countedImage countedImage_listed).1 name).2.1.succeeds
  constructor
  · exact (opens shellName).2 ⟨0, by decide +kernel, by decide +kernel⟩
  · rw [opens]
    rintro ⟨index, inside, same⟩
    have only : index = 0 := by
      have one : countedImage.dirCount = 1 := by decide +kernel
      omega
    subst only
    revert same
    decide +kernel

end ComputerSystems.Kernel
