import ComputerSystems.Proof.Kernel.ReadData

namespace ComputerSystems.Kernel

/-- An image of one boot block, its inodes and its data blocks, with arbitrary inode contents. -/
structure Image extends FileSystem where
  inodes : Nat
  datas : Nat
  inodeField : toFileSystem.inodeCount = inodes
  dataField : toFileSystem.dataCount = datas
  fits : fsPtr + 4096 * (1 + inodes + datas) ≤ 2 ^ 32

namespace Image

def size (image : Image) : Nat := 4096 * (1 + image.inodes + image.datas)

/-- The request needs this block for at least one of its bytes. -/
def Needs (image : Image) (inode offset length index : Nat) : Prop :=
  inode < image.inodes ∧
    ∃ position < requested image.toFileSystem inode offset length,
      (offset + position) / 4096 = index

/-- The stored number names one of the data blocks. -/
def Legal (image : Image) (inode index : Nat) : Prop :=
  0 ≤ image.dataBlockNum inode index ∧ image.dataBlockNum inode index < image.datas

/-- The code looks this index up when all earlier numbers pass its check. -/
def Consults (image : Image) (inode offset length index : Nat) : Prop :=
  offset / 4096 ≤ index ∧
    index ≤ lastIndex offset (requested image.toFileSystem inode offset length) ∧
      ∀ earlier, offset / 4096 ≤ earlier → earlier < index →
        image.dataBlockNum inode earlier < image.datas

end Image

/-- What a safe call does on an arbitrary image. -/
def ReadSafe (image : Image) (inode offset : Word) (buf : Nat → UInt8) (length : Word) : Prop :=
  ∃ outcome, readData image.toFileSystem inode offset buf length = some outcome ∧
    (∀ load ∈ outcome.loads, ∀ byte ∈ load.bytes, byte < image.size) ∧
    (∀ position place, .data position place ∈ outcome.loads →
      4096 * (1 + image.inodes) ≤ place ∧ place < image.size) ∧
    (∀ index place, .entry index place ∈ outcome.loads → index ≤ 1022) ∧
    ((∃ index ≤ 1022, image.Needs inode.toNat offset.toNat length.toNat index ∧
      ¬ image.Legal inode.toNat index) → outcome.result = -1)

/-- The inodes on which the code is safe: it consults only indices of the table, and a negative
number is consulted only if it wraps to a data block and a later number stops the call. -/
def ReadGuarded (image : Image) (inode offset length : Nat) : Prop :=
  image.inodes ≤ inode ∨ image.inodeLength inode ≤ offset ∨
    (∀ index, image.Consults inode offset length index →
      index ≤ 1022 ∧ (0 < requested image.toFileSystem inode offset length →
        image.dataBlockNum inode index < image.datas →
          image.dataBlockNum inode index % 2 ^ 20 < image.datas)) ∧
    (0 < requested image.toFileSystem inode offset length →
      (∀ index, image.Consults inode offset length index →
        image.dataBlockNum inode index < image.datas) →
      ∀ index, image.Consults inode offset length index → 0 ≤ image.dataBlockNum inode index)

section Blocks

variable (image : Image)

theorem Image.inodes_lt : image.inodes + image.datas < 2 ^ 20 := by
  have fits := image.fits
  omega

theorem Image.int32_inodes : int32 image.inodeCount = image.inodes := by
  have bound := image.inodes_lt
  rw [image.inodeField, int32, if_pos (by omega)]

theorem Image.int32_datas : int32 image.dataCount = image.datas := by
  have bound := image.inodes_lt
  rw [image.dataField, int32, if_pos (by omega)]

/-- A byte of a block is a data byte exactly when the number wraps to a data block. -/
theorem Image.data_iff (number : Int) {within : Nat} (inside : within < 4096) :
    (4096 * (1 + image.inodes) ≤ (image.dataBlock number + within) % 2 ^ 32 ∧
      (image.dataBlock number + within) % 2 ^ 32 < image.size) ↔
      number % 2 ^ 20 < image.datas := by
  have bound := image.inodes_lt
  rw [FileSystem.dataBlock, image.int32_inodes, Image.size, numBytesInFourKb]
  omega

/-- Blocks that pass through an index are the consulted blocks and their numbers. -/
theorem Image.consults_of_pass {inode offset length index last : Nat}
    (pass : BlocksPass image.toFileSystem inode (offset / 4096) last)
    (lower : offset / 4096 ≤ index) (upper : index ≤ last)
    (inside : index ≤ lastIndex offset (requested image.toFileSystem inode offset length)) :
    image.Consults inode offset length index ∧ image.dataBlockNum inode index < image.datas := by
  rw [BlocksPass, image.int32_datas] at pass
  exact ⟨⟨lower, inside, fun earlier first before => pass earlier first (by omega)⟩,
    pass index lower upper⟩

/-- The start of a consulted block, or the first requested byte, is a requested byte of it. -/
theorem exists_position {first amount index : Nat} (positive : 0 < amount)
    (lower : first / 4096 ≤ index) (upper : index ≤ lastIndex first amount) :
    ∃ position < amount, (first + position) / 4096 = index := by
  rw [lastIndex] at upper
  by_cases start : index = first / 4096
  · exact ⟨0, positive, start.symm⟩
  · have beyond : first < 4096 * index := by omega
    exact ⟨4096 * index - first, by omega, by omega⟩

end Blocks

section Directions

variable (image : Image) (inode offset : Word) (buf : Nat → UInt8) (length : Word)

/-- The fixed fields of a call with an inode in range lie inside the image. -/
theorem Image.field_inside {inode place : Nat} (inRange : inode < image.inodes)
    (known : place = 4 ∨ place = 8 ∨ place = FileSystem.inodeBlock inode) :
    place + 3 < image.size := by
  have bound := image.inodes_lt
  rw [FileSystem.inodeBlock, numBytesInFourKb] at known
  rw [Image.size]
  omega

/-- A table entry inside the table lies inside the image. -/
theorem Image.entry_inside {inode index : Nat} (inRange : inode < image.inodes)
    (inTable : index ≤ 1022) : FileSystem.entryOffset inode index + 3 < image.size := by
  have bound := image.inodes_lt
  rw [FileSystem.entryOffset, FileSystem.inodeBlock, numBytesInFourKb, Image.size]
  omega

/-- The bytes of a four-byte load lie inside once its last byte does. -/
theorem Image.four_inside {place byte : Nat} (last : place + 3 < image.size)
    (member : byte ∈ [place, place + 1, place + 2, place + 3]) : byte < image.size := by
  simp only [List.mem_cons, List.not_mem_nil, or_false] at member
  omega

/-- A guarded call touches only legal bytes and reports every illegal number it needs. -/
theorem readSafe_of_guarded
    (guarded : ReadGuarded image inode.toNat offset.toNat length.toNat) :
    ReadSafe image inode offset buf length := by
  by_cases inRange : inode.toNat < image.inodes
  case neg =>
    have returned := readData_outOfRange image.toFileSystem inode offset length buf
      (by rw [image.inodeField]; omega)
    have header : 4 + 3 < image.size := by
      rw [Image.size]
      omega
    refine ⟨_, returned, fun load member byte touched => ?_, by simp, by simp, fun _ => rfl⟩
    rw [List.mem_singleton.mp member] at touched
    exact image.four_inside header touched
  by_cases inFile : offset.toNat < image.inodeLength inode.toNat
  case neg =>
    have returned := readData_pastEnd image.toFileSystem inode offset length buf
      (by rw [image.inodeField]; omega) (Nat.le_of_not_lt inFile)
    refine ⟨_, returned, fun load member byte touched => ?_, by simp, by simp, ?_⟩
    · simp only [List.mem_cons, List.not_mem_nil, or_false] at member
      rcases member with same | same
      · rw [same] at touched
        exact image.four_inside (image.field_inside inRange (.inr (.inr rfl))) touched
      · rw [same] at touched
        exact image.four_inside (image.field_inside inRange (.inl rfl)) touched
    · intro illegal
      obtain ⟨index, -, ⟨-, position, inside, -⟩, -⟩ := illegal
      rw [requested] at inside
      omega
  obtain ⟨outcome, returned, spec⟩ := readData_spec image.toFileSystem inode offset length buf
    (by rw [image.inodeField]; exact inRange) inFile
  obtain ⟨consulted, finished⟩ := (guarded.resolve_left (by omega)).resolve_left (by omega)
  have inTable (index place : Nat) (member : .entry index place ∈ outcome.loads) :
      index ≤ 1022 ∧ place = FileSystem.entryOffset inode.toNat index := by
    obtain ⟨lower, upper, pass, same⟩ := (spec.entries index place).mp member
    rw [image.int32_datas] at pass
    exact ⟨(consulted index ⟨lower, upper, pass⟩).1, same⟩
  have inData (position place : Nat) (member : .data position place ∈ outcome.loads) :
      4096 * (1 + image.inodes) ≤ place ∧ place < image.size := by
    obtain ⟨inside, pass, same⟩ := (spec.data position place).mp member
    have upper : (offset.toNat + position) / 4096 ≤ lastIndex offset.toNat
        (requested image.toFileSystem inode.toNat offset.toNat length.toNat) :=
      Nat.div_le_div_right (by omega)
    obtain ⟨consults, below⟩ := image.consults_of_pass pass
      (Nat.div_le_div_right (Nat.le_add_right _ _)) (Nat.le_refl _) upper
    rw [same, sourceOffset, image.data_iff _ (Nat.mod_lt _ (by decide))]
    exact (consulted _ consults).2 (by omega) below
  refine ⟨outcome, returned, fun load member byte touched => ?_, inData,
    fun index place member => (inTable index place member).1, ?_⟩
  · cases load with
    | field place =>
        exact image.four_inside (image.field_inside inRange (spec.fields place member)) touched
    | entry index place =>
        obtain ⟨inside, same⟩ := inTable index place member
        rw [same] at touched
        exact image.four_inside (image.entry_inside inRange inside) touched
    | data position place =>
        rw [List.mem_singleton.mp touched]
        exact (inData position place member).2
  · intro illegal
    obtain ⟨index, -, ⟨-, position, inside, same⟩, broken⟩ := illegal
    apply spec.failed
    intro pass
    have range (index : Nat)
        (consults : image.Consults inode.toNat offset.toNat length.toNat index) :
        image.dataBlockNum inode.toNat index < image.datas := by
      rw [BlocksPass, image.int32_datas] at pass
      exact pass index consults.1 consults.2.1
    have upper : index ≤ lastIndex offset.toNat
        (requested image.toFileSystem inode.toNat offset.toNat length.toNat) := by
      rw [← same]
      exact Nat.div_le_div_right (by omega)
    obtain ⟨consults, below⟩ := image.consults_of_pass pass
      (by rw [← same]; exact Nat.div_le_div_right (Nat.le_add_right _ _)) upper upper
    exact broken ⟨finished (by omega) range index consults, below⟩

/-- A safe call is guarded, because every consulted block is loaded from. -/
theorem guarded_of_readSafe (safe : ReadSafe image inode offset buf length) :
    ReadGuarded image inode.toNat offset.toNat length.toNat := by
  by_cases inRange : inode.toNat < image.inodes
  case neg => exact .inl (Nat.le_of_not_lt inRange)
  by_cases inFile : offset.toNat < image.inodeLength inode.toNat
  case neg => exact .inr (.inl (Nat.le_of_not_lt inFile))
  obtain ⟨outcome, returned, spec⟩ := readData_spec image.toFileSystem inode offset length buf
    (by rw [image.inodeField]; exact inRange) inFile
  obtain ⟨same, returnedSafe, -, inData, inTable, reported⟩ := safe
  obtain rfl := Option.some.inj (returned.symm.trans returnedSafe)
  have table (index : Nat)
      (consults : image.Consults inode.toNat offset.toNat length.toNat index) :
      index ≤ 1022 := by
    apply inTable index (FileSystem.entryOffset inode.toNat index)
    rw [spec.entries, image.int32_datas]
    exact ⟨consults.1, consults.2.1, consults.2.2, rfl⟩
  refine .inr (.inr ⟨fun index consults => ⟨table index consults, ?_⟩, ?_⟩)
  · intro positive below
    obtain ⟨position, inside, block⟩ := exists_position positive consults.1 consults.2.1
    have pass : BlocksPass image.toFileSystem inode.toNat (offset.toNat / 4096)
        ((offset.toNat + position) / 4096) := by
      intro earlier lower upper
      rw [block] at upper
      rw [image.int32_datas]
      by_cases last : earlier = index
      · rw [last]
        exact below
      · exact consults.2.2 earlier lower (by omega)
    have loaded := inData position _ ((spec.data position _).mpr ⟨inside, pass, rfl⟩)
    rw [sourceOffset, image.data_iff _ (Nat.mod_lt _ (by decide)), block] at loaded
    exact loaded
  · intro positive below index consults
    have pass : BlocksPass image.toFileSystem inode.toNat (offset.toNat / 4096)
        (lastIndex offset.toNat
          (requested image.toFileSystem inode.toNat offset.toNat length.toNat)) := by
      intro earlier lower upper
      rw [image.int32_datas]
      induction earlier using Nat.strongRecOn with
      | ind earlier ih =>
          exact below earlier ⟨lower, upper, fun first start before =>
            ih first before start (by omega)⟩
    have all (earlier : Nat) (lower : offset.toNat / 4096 ≤ earlier)
        (upper : earlier ≤ lastIndex offset.toNat
          (requested image.toFileSystem inode.toNat offset.toNat length.toNat)) :
        image.Consults inode.toNat offset.toNat length.toNat earlier :=
      (image.consults_of_pass pass lower upper upper).1
    have lastInTable := table _ (all _ (Nat.div_le_div_right (by omega)) (Nat.le_refl _))
    by_contra negative
    have failed := reported ⟨index, table index consults, ⟨inRange,
      exists_position positive consults.1 consults.2.1⟩, fun legal => negative legal.1⟩
    rw [spec.passed pass, int32] at failed
    split at failed <;> omega

/-- `read_data` is safe on an arbitrary image exactly on the guarded inodes. -/
theorem readSafe_iff_guarded :
    ReadSafe image inode offset buf length ↔
      ReadGuarded image inode.toNat offset.toNat length.toNat :=
  ⟨guarded_of_readSafe image inode offset buf length,
    readSafe_of_guarded image inode offset buf length⟩

end Directions

/-- The only file of this image has one byte, in the block with number minus one. -/
def negativeImage : Image where
  memory address :=
    if address = 4 ∨ address = 8 ∨ address = 4096 then 1
    else if 4100 ≤ address ∧ address < 4104 then 255 else 0
  fsPtr := 0
  inodes := 1
  datas := 1
  inodeField := by decide
  dataField := by decide
  fits := by decide

/-- A call for the byte of that file copies a byte of the inode instead of failing. -/
theorem readData_negative_unsafe : ¬ ReadSafe negativeImage 0 0 (fun _ => 0) 1 := by
  intro safe
  have consulted := (guarded_of_readSafe negativeImage 0 0 (fun _ => 0) 1 safe).resolve_left
    (by decide)
  have finished := (consulted.resolve_left (by decide)).1 0
    ⟨by decide, by decide, fun earlier _ before => absurd before (Nat.not_lt_zero _)⟩
  exact absurd (finished.2 (by decide) (by decide)) (by decide)

end ComputerSystems.Kernel
