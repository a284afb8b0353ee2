import ComputerSystems.Proof.Kernel.DirectoryLookup

namespace ComputerSystems.Kernel
open ComputerSystems.Library

/-- The counted entries have names, and the rest of the directory is zero. -/
structure NamedImage (fs : FileSystem) : Prop where
  count : fs.dirCount ≤ numFiles
  named : ∀ index < fs.dirCount, (fs.direntries index).fullName ≠ []
  zero : ∀ index, fs.dirCount ≤ index → index < numFiles → ∀ position < 64,
    fs.byte (64 + 64 * index + position) = 0

/-- The result and the buffer of one read in an enumeration. -/
def enumerated (fs : FileSystem) (fd : Fin 8) (bufs : Nat → Nat → UInt8)
    (fileArray : FileArray) (index : Nat) : Int × (Nat → UInt8) :=
  let read := directoryRead fs fd (bufs index) (listingTable fs fd bufs fileArray index)
  (read.1, read.2.1)

/-- A read delivers the name of its entry, and zero says that the entries are used up. -/
structure ReadsEntry (fs : FileSystem) (index : Nat) (read : Int × (Nat → UInt8)) : Prop where
  result : index < fs.dirCount → read.1 = (fs.direntries index).fullName.length
  name : index < fs.dirCount →
    (List.range read.1.toNat).map read.2 = (fs.direntries index).fullName
  stop : read.1 = 0 ↔ fs.dirCount ≤ index
  success : read.1 ≠ -1

section
variable {fs : FileSystem} {fd : Fin 8} {bufs : Nat → Nat → UInt8} {fileArray : FileArray}
  {index : Nat}

theorem NamedImage.fullName_length (named : NamedImage fs) (inside : index < numFiles) :
    (fs.direntries index).fullName.length = 0 ↔ fs.dirCount ≤ index := by
  rw [List.length_eq_zero_iff]
  constructor
  · intro unnamed
    by_contra counted
    exact named.named index (Nat.lt_of_not_le counted) unnamed
  · intro beyond
    apply Dentry.fullName_eq_nil
    exact named.zero index beyond inside 0 (by decide)

/-- A read among the first 63 gets the full name of its entry. -/
theorem enumerated_inside (fs : FileSystem) (fd : Fin 8) (bufs : Nat → Nat → UInt8)
    (start : (fileArray fd).filePosition = 0) (inside : index < numFiles) :
    (enumerated fs fd bufs fileArray index).1 = (fs.direntries index).fullName.length ∧
      ∀ place < (fs.direntries index).fullName.length,
        (enumerated fs fd bufs fileArray index).2 place = (fs.direntries index).filename place := by
  have position := listingTable_position fs fd bufs start (Nat.le_of_lt inside)
  have found : fs.readDentryByIndex
      ((listingTable fs fd bufs fileArray index) fd).filePosition.toNat =
        some (fs.direntries index) := by
    rw [position]
    exact if_neg (Nat.not_le_of_lt inside)
  obtain ⟨buf, after, read, stored, _⟩ := directoryRead_some found (bufs index)
  unfold enumerated
  rw [read]
  refine ⟨rfl, fun place within => ?_⟩
  dsimp only
  rw [stored, if_pos within]

/-- The position of the descriptor stays at the bound of the index check. -/
theorem listingTable_stuck (fs : FileSystem) (fd : Fin 8) (bufs : Nat → Nat → UInt8)
    (start : (fileArray fd).filePosition = 0) (beyond : numFiles ≤ index) :
    ((listingTable fs fd bufs fileArray index) fd).filePosition.toNat = numFiles := by
  induction index, beyond using Nat.le_induction with
  | base => exact listingTable_position fs fd bufs start (Nat.le_refl _)
  | succ index beyond ih =>
      have refused : fs.readDentryByIndex
          ((listingTable fs fd bufs fileArray index) fd).filePosition.toNat = none := by
        rw [ih]
        exact if_pos (Nat.le_refl _)
      rw [listingTable, directoryRead_none refused]
      exact ih

theorem enumerated_beyond (fs : FileSystem) (fd : Fin 8) (bufs : Nat → Nat → UInt8)
    (start : (fileArray fd).filePosition = 0) (beyond : numFiles ≤ index) :
    (enumerated fs fd bufs fileArray index).1 = -1 := by
  have refused : fs.readDentryByIndex
      ((listingTable fs fd bufs fileArray index) fd).filePosition.toNat = none := by
    rw [listingTable_stuck fs fd bufs start beyond]
    exact if_pos (Nat.le_refl _)
  unfold enumerated
  rw [directoryRead_none refused]

theorem Dentry.fullName_eq_map (dentry : Dentry) :
    (List.range dentry.fullName.length).map dentry.filename = dentry.fullName := by
  apply List.ext_getElem?
  intro place
  rw [List.getElem?_map]
  by_cases inside : place < dentry.fullName.length
  · have taken := field_getElem? filenameLen 0 place inside
    rw [Nat.zero_add] at taken
    rw [List.getElem?_range inside, Option.map_some]
    exact taken.symm
  · rw [List.getElem?_eq_none (by simpa using inside), List.getElem?_eq_none (by omega)]
    rfl

/-- An enumeration is clean for exactly its first 63 reads. -/
theorem enumerated_readsEntry_iff (named : NamedImage fs) (fd : Fin 8)
    (bufs : Nat → Nat → UInt8) (start : (fileArray fd).filePosition = 0) (index : Nat) :
    ReadsEntry fs index (enumerated fs fd bufs fileArray index) ↔ index < numFiles := by
  constructor
  · intro reads
    by_contra beyond
    exact reads.success (enumerated_beyond fs fd bufs start (Nat.le_of_not_lt beyond))
  · intro inside
    obtain ⟨result, stored⟩ := enumerated_inside fs fd bufs start inside
    constructor
    case result => exact fun _ => result
    case name =>
      intro _
      rw [result, Int.toNat_natCast]
      conv_rhs => rw [← Dentry.fullName_eq_map]
      apply List.map_congr_left
      intro place member
      exact stored place (List.mem_range.1 member)
    case stop =>
      rw [result, Int.natCast_eq_zero]
      exact named.fullName_length inside
    case success =>
      rw [result]
      omega

end

/-- An image whose directory is full, and every entry has a name of one letter. -/
def fullImage : FileSystem where
  memory address := if address = 0 then 63 else if address % 64 = 0 then 97 else 0
  fsPtr := 0

theorem fullImage_named : NamedImage fullImage where
  count := by decide +kernel
  named := by decide +kernel
  zero := by
    intro index beyond inside
    have full : fullImage.dirCount = numFiles := by decide +kernel
    omega

/-- A table whose descriptors are all open on a directory. -/
def directoryTable : FileArray := fun _ => ⟨.directoryOps, 0, 0, .fileOccup⟩

theorem directoryTable_start : (directoryTable 2).filePosition = 0 := rfl

/-- The last entry of the full directory is read, and the read after it is not clean. -/
theorem enumerated_readsEntry_full :
    ReadsEntry fullImage 62 (enumerated fullImage 2 (fun _ _ => 0) directoryTable 62) ∧
      ¬ReadsEntry fullImage 63 (enumerated fullImage 2 (fun _ _ => 0) directoryTable 63) := by
  have reads := enumerated_readsEntry_iff fullImage_named 2 (fun _ _ => 0) directoryTable_start
  exact ⟨(reads 62).2 (by decide), fun clean => absurd ((reads 63).1 clean) (by decide)⟩

/-- The enumeration of a full directory fails instead of ending. -/
theorem enumerated_full_fails :
    NamedImage fullImage ∧ (directoryTable 2).filePosition = 0 ∧ fullImage.dirCount = 63 ∧
      (enumerated fullImage 2 (fun _ _ => 0) directoryTable 63).1 = -1 ∧
      ¬ReadsEntry fullImage 63 (enumerated fullImage 2 (fun _ _ => 0) directoryTable 63) := by
  have failed := enumerated_beyond fullImage 2 (fun _ _ => 0) directoryTable_start
    (Nat.le_refl numFiles)
  exact ⟨fullImage_named, rfl, by decide +kernel, failed, fun reads => reads.success failed⟩

end ComputerSystems.Kernel
