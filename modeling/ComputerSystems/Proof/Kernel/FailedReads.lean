import ComputerSystems.Construction.Kernel.Vfs
import ComputerSystems.Proof.Kernel.ReadData

namespace ComputerSystems.Kernel

/-- A read that returns minus one leaves the whole descriptor table alone. -/
def KeepsTable (fs : FileSystem) (fd : Fin 8) (buf : Nat → UInt8) (nbytes : Word)
    (fileArray : FileArray) : Prop :=
  ∃ result read after, fileRead fs fd buf nbytes fileArray = some (result, read, after) ∧
    (result = -1 → after = fileArray)

/-- The inode is in range, and either nothing is left of the file or every block of the request
passes its check. The largest length is excluded because its signed value is minus one. -/
structure ReadSucceeds (fs : FileSystem) (entry : FileT) (nbytes : Word) : Prop where
  inRange : entry.inodeNum.toNat < fs.inodeCount
  passes : entry.filePosition.toNat < fs.inodeLength entry.inodeNum.toNat →
    BlocksPass fs entry.inodeNum.toNat (entry.filePosition.toNat / 4096)
      (lastIndex entry.filePosition.toNat
        (requested fs entry.inodeNum.toNat entry.filePosition.toNat nbytes.toNat))
  amount : requested fs entry.inodeNum.toNat entry.filePosition.toNat nbytes.toNat ≠ 2 ^ 32 - 1

theorem int32_eq_neg_one {pattern : Nat} (small : pattern < 2 ^ 32) :
    int32 pattern = -1 ↔ pattern = 2 ^ 32 - 1 := by
  unfold int32
  split
  · constructor <;> omega
  · constructor <;> omega

theorem requested_lt (fs : FileSystem) (inode offset : Nat) (length : Word) :
    requested fs inode offset length.toNat < 2 ^ 32 :=
  (Nat.min_le_left ..).trans_lt length.isLt

/-- The result of `read_data` is minus one exactly when the request does not succeed. -/
theorem readData_fails_iff (fs : FileSystem) (entry : FileT) (nbytes : Word)
    (buf : Nat → UInt8) :
    ∃ outcome, readData fs entry.inodeNum entry.filePosition buf nbytes = some outcome ∧
      (outcome.result = -1 ↔ ¬ReadSucceeds fs entry nbytes) := by
  by_cases inRange : entry.inodeNum.toNat < fs.inodeCount
  · by_cases inFile : entry.filePosition.toNat < fs.inodeLength entry.inodeNum.toNat
    · obtain ⟨outcome, returned, spec⟩ := readData_spec fs entry.inodeNum entry.filePosition
        nbytes buf inRange inFile
      refine ⟨outcome, returned, ?_⟩
      by_cases pass : BlocksPass fs entry.inodeNum.toNat (entry.filePosition.toNat / 4096)
          (lastIndex entry.filePosition.toNat
            (requested fs entry.inodeNum.toNat entry.filePosition.toNat nbytes.toNat))
      · rw [spec.passed pass, int32_eq_neg_one (requested_lt ..)]
        constructor
        · exact fun largest succeeds => succeeds.amount largest
        · intro failed
          by_contra other
          exact failed ⟨inRange, fun _ => pass, other⟩
      · exact iff_of_true (spec.failed pass) fun succeeds => pass (succeeds.passes inFile)
    · refine ⟨_, readData_pastEnd fs _ _ nbytes buf inRange (Nat.le_of_not_lt inFile), ?_⟩
      have nothing :
          requested fs entry.inodeNum.toNat entry.filePosition.toNat nbytes.toNat = 0 := by
        rw [requested]
        omega
      refine iff_of_false (fun failed => absurd failed (by dsimp only; omega)) (not_not.2 ?_)
      exact ⟨inRange, fun inside => absurd inside inFile, by omega⟩
  · refine ⟨_, readData_outOfRange fs _ _ nbytes buf (Nat.le_of_not_lt inRange), ?_⟩
    exact iff_of_true rfl fun succeeds => inRange succeeds.inRange

/-- A position moves under every nonzero change. -/
theorem update_position_eq_iff (fileArray : FileArray) (fd : Fin 8) (change : Word) :
    Function.update fileArray fd { fileArray fd with
      filePosition := (fileArray fd).filePosition + change } = fileArray ↔ change = 0 := by
  constructor
  · intro same
    have position := congrArg FileT.filePosition (congrFun same fd)
    rw [Function.update_self] at position
    simpa using position
  · rintro rfl
    have still : (fileArray fd).filePosition + 0 = (fileArray fd).filePosition := BitVec.add_zero _
    rw [still]
    exact Function.update_eq_self fd fileArray

/-- A failed read leaves the table alone exactly on the standard descriptors, and elsewhere only
when the read does not fail. -/
theorem keepsTable_iff (fs : FileSystem) (fd : Fin 8) (buf : Nat → UInt8) (nbytes : Word)
    (fileArray : FileArray) :
    KeepsTable fs fd buf nbytes fileArray ↔
      fd = 1 ∨ fd = 0 ∨ ReadSucceeds fs (fileArray fd) nbytes := by
  unfold KeepsTable fileRead
  by_cases standard : fd = 1 ∨ fd = 0
  · rw [if_pos standard]
    exact iff_of_true ⟨-1, buf, fileArray, rfl, fun _ => rfl⟩
      (standard.imp_right .inl)
  · obtain ⟨outcome, returned, fails⟩ := readData_fails_iff fs (fileArray fd) nbytes buf
    rw [if_neg standard, returned, ← or_assoc, or_iff_right standard]
    constructor
    · rintro ⟨result, read, after, same, kept⟩
      cases same
      by_contra unsuccessful
      have failed := fails.2 unsuccessful
      have still := (update_position_eq_iff fileArray fd _).1 (kept failed)
      rw [failed] at still
      exact absurd still (by decide)
    · intro succeeds
      exact ⟨_, _, _, rfl, fun failed => absurd succeeds (fails.1 failed)⟩

/-- The only file of this image has five bytes in a block that the image does not have. -/
def brokenImage : FileSystem where
  memory address := if address = 4 ∨ address = 8 then 1 else if address = 4096 then 5
    else if address = 4100 then 7 else 0
  fsPtr := 0

/-- A table whose descriptors are all at the start of that file. -/
def fileTable : FileArray := fun _ => ⟨.fileOps, 0, 0, .fileOccup⟩

/-- The failed read moves the position so far that the next read reports the end of the file. -/
theorem fileRead_broken_moves :
    ¬KeepsTable brokenImage 2 (fun _ => 0) 5 fileTable ∧
      ∃ read after, fileRead brokenImage 2 (fun _ => 0) 5 fileTable = some (-1, read, after) ∧
        (after 2).filePosition = 0xFFFFFFFF ∧
        (fileRead brokenImage 2 (fun _ => 0) 5 after).map Prod.fst = some 0 := by
  have failed : ∃ read after, fileRead brokenImage 2 (fun _ => 0) 5 fileTable =
      some (-1, read, after) ∧ (after 2).filePosition = 0xFFFFFFFF ∧
        (fileRead brokenImage 2 (fun _ => 0) 5 after).map Prod.fst = some 0 :=
    ⟨_, _, rfl, by decide +kernel, by decide +kernel⟩
  refine ⟨?_, failed⟩
  rintro ⟨result, read, after, returned, kept⟩
  obtain ⟨other, moved, actual, position, _⟩ := failed
  rw [returned] at actual
  cases actual
  rw [kept rfl] at position
  exact absurd position (by decide)

end ComputerSystems.Kernel
