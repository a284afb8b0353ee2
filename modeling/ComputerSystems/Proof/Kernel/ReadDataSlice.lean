import ComputerSystems.Proof.Kernel.ReadData

namespace ComputerSystems.Kernel

/-- Offsets that agree modulo the address space name the same byte. -/
theorem FileSystem.byte_congr (fs : FileSystem) {first second : Nat}
    (same : first % 2 ^ 32 = second % 2 ^ 32) : fs.byte first = fs.byte second := by
  rw [FileSystem.byte, FileSystem.byte, Nat.add_mod, same, ← Nat.add_mod]

/-- A nonnegative number names the block after the boot block and the inodes. -/
theorem FileSystem.dataBlock_byte (fs : FileSystem) {number : Int} (nonnegative : 0 ≤ number)
    (within : Nat) :
    fs.byte (fs.dataBlock number + within) =
      fs.byte ((1 + fs.inodeCount + number.toNat) * 4096 + within) := by
  have bound := fs.word_lt 4
  rw [← FileSystem.inodeCount] at bound
  apply fs.byte_congr
  simp only [FileSystem.dataBlock, numBytesInFourKb, int32]
  split <;> omega

/-- The inode holds a file of legal length whose block numbers are all legal. -/
structure SoundInode (fs : FileSystem) (inode : Nat) : Prop where
  inRange : inode < fs.inodeCount
  short : fs.inodeLength inode ≤ 1023 * 4096
  blocks : ∀ index, index < (fs.inodeLength inode + 4095) / 4096 →
    0 ≤ fs.dataBlockNum inode index ∧ fs.dataBlockNum inode index < int32 fs.dataCount

/-- The size of the slice that a call returns. -/
def sliceLength (fs : FileSystem) (inode offset length : Nat) : Nat :=
  if fs.inodeLength inode ≤ offset then 0 else min length (fs.inodeLength inode - offset)

/-- The range of a request inside the file needs only blocks of the file. -/
theorem lastIndex_lt (fs : FileSystem) (inode offset length : Nat)
    (inFile : offset < fs.inodeLength inode) :
    lastIndex offset (requested fs inode offset length) <
      (fs.inodeLength inode + 4095) / 4096 := by
  rw [lastIndex, requested]
  omega

/-- A sound inode passes every check of a request. -/
theorem SoundInode.passes {fs : FileSystem} {inode : Nat} (sound : SoundInode fs inode)
    {offset : Nat} (inFile : offset < fs.inodeLength inode) (length : Nat) :
    BlocksPass fs inode (offset / 4096)
      (lastIndex offset (requested fs inode offset length)) := by
  intro index _ upper
  have inside := lastIndex_lt fs inode offset length inFile
  exact (sound.blocks index (by omega)).2

/-- `read_data` returns exactly the requested slice of a sound file. -/
theorem readData_slice (fs : FileSystem) (inode offset length : Word) (buf : Nat → UInt8)
    (sound : SoundInode fs inode.toNat) :
    ∃ outcome, readData fs inode offset buf length = some outcome ∧
      outcome.result = sliceLength fs inode.toNat offset.toNat length.toNat ∧
      (∀ position < sliceLength fs inode.toNat offset.toNat length.toNat,
        outcome.buf position = fs.byte ((1 + fs.inodeCount +
          (fs.dataBlockNum inode.toNat ((offset.toNat + position) / 4096)).toNat) * 4096 +
            (offset.toNat + position) % 4096)) ∧
      (∀ position, sliceLength fs inode.toNat offset.toNat length.toNat ≤ position →
        outcome.buf position = buf position) ∧
      ∀ index place, .entry index place ∈ outcome.loads →
        index < (fs.inodeLength inode.toNat + 4095) / 4096 := by
  by_cases inFile : offset.toNat < fs.inodeLength inode.toNat
  · obtain ⟨outcome, returned, spec⟩ := readData_spec fs inode offset length buf
      sound.inRange inFile
    have slice : sliceLength fs inode.toNat offset.toNat length.toNat =
        requested fs inode.toNat offset.toNat length.toNat :=
      if_neg (Nat.not_le_of_lt inFile)
    have pass := sound.passes inFile length.toNat
    refine ⟨outcome, returned, ?result, ?bytes, ?rest, ?entries⟩
    case result =>
      have short := sound.short
      rw [spec.passed pass, slice, int32, if_pos]
      rw [requested]
      omega
    case bytes =>
      intro position inside
      rw [slice] at inside
      have reached : (offset.toNat + position) / 4096 ≤
          lastIndex offset.toNat (requested fs inode.toNat offset.toNat length.toNat) :=
        Nat.div_le_div_right (by omega)
      rw [spec.bytes position inside fun index lower upper =>
        pass index lower (upper.trans reached)]
      have within := lastIndex_lt fs inode.toNat offset.toNat length.toNat inFile
      exact fs.dataBlock_byte (sound.blocks _ (by omega)).1 _
    case rest =>
      intro position outside
      exact spec.rest position (slice ▸ outside)
    case entries =>
      intro index place member
      have consulted := (spec.entries index place).mp member
      have within := lastIndex_lt fs inode.toNat offset.toNat length.toNat inFile
      omega
  · have slice : sliceLength fs inode.toNat offset.toNat length.toNat = 0 :=
      if_pos (Nat.le_of_not_lt inFile)
    refine ⟨_, readData_pastEnd fs inode offset length buf sound.inRange
      (Nat.le_of_not_lt inFile), ?_⟩
    rw [slice]
    refine ⟨rfl, fun position inside => absurd inside (Nat.not_lt_zero _),
      fun position _ => rfl, fun index place member => ?_⟩
    simp at member

/-- This image holds one inode and one data block with a file of five bytes. -/
def smallFileSystem : FileSystem where
  memory address := if address = 4 ∨ address = 8 then 1 else if address = 4096 then 5 else 0
  fsPtr := 0

theorem smallFileSystem_sound : SoundInode smallFileSystem 0 where
  inRange := by decide
  short := by decide
  blocks := by decide

/-- A request of nine bytes from offset two returns the last three bytes of the file. -/
theorem readData_slice_small :
    ∃ outcome, readData smallFileSystem 0 2 (fun _ => 0) 9 = some outcome ∧
      outcome.result = 3 := by
  obtain ⟨outcome, returned, result, -⟩ :=
    readData_slice smallFileSystem 0 2 9 (fun _ => 0) smallFileSystem_sound
  exact ⟨outcome, returned, result⟩

end ComputerSystems.Kernel
