import ComputerSystems.Library.Loop
import Mathlib.Data.List.TakeWhile

namespace ComputerSystems.Kernel
open ComputerSystems.Library

/-- The argument and field type `uint32_t`. -/
abbrev Word := BitVec 32

/-- The `int32_t` value of a 32-bit pattern. -/
def int32 (pattern : Nat) : Int :=
  if pattern < 2 ^ 31 then pattern else pattern - 2 ^ 32

abbrev numBytesInFourKb : Nat := 4096
abbrev numFiles : Nat := 63
abbrev filenameLen : Nat := 32

/-- A C string is its bytes before the terminator. -/
structure CString where
  bytes : List UInt8
  noTerminator : 0 ∉ bytes

/-- Memory that starts at a pointer holds the string up to its first zero byte. -/
def CString.ofMemory (memory : List UInt8) : CString where
  bytes := memory.takeWhile (· != 0)
  noTerminator := by
    intro member
    simpa using List.mem_takeWhile_imp member

/-- Indexing a string reads its terminator after the last byte. -/
def CString.get (string : CString) (index : Nat) : UInt8 := string.bytes.getD index 0

/-- The file-system image lies in memory from `fs_ptr` on. -/
structure FileSystem where
  memory : Nat → UInt8
  fsPtr : Nat

namespace FileSystem

/-- Address arithmetic wraps at 32 bits. -/
def byte (fs : FileSystem) (offset : Nat) : UInt8 :=
  fs.memory ((fs.fsPtr + offset) % 2 ^ 32)

/-- Four bytes form one little-endian field. -/
def word (fs : FileSystem) (offset : Nat) : Nat :=
  (fs.byte offset).toNat + 2 ^ 8 * (fs.byte (offset + 1)).toNat +
    2 ^ 16 * (fs.byte (offset + 2)).toNat + 2 ^ 24 * (fs.byte (offset + 3)).toNat

def inodeCount (fs : FileSystem) : Nat := fs.word 4
def dataCount (fs : FileSystem) : Nat := fs.word 8

/-- The offset of `inode_block_t` number `inode`. -/
def inodeBlock (inode : Nat) : Nat := numBytesInFourKb * (inode + 1) % 2 ^ 32

/-- The offset of `data_block_num[index]`. -/
def entryOffset (inode index : Nat) : Nat := (inodeBlock inode + 4 + 4 * index) % 2 ^ 32

def inodeLength (fs : FileSystem) (inode : Nat) : Nat := fs.word (inodeBlock inode)

def dataBlockNum (fs : FileSystem) (inode index : Nat) : Int :=
  int32 (fs.word (entryOffset inode index))

/-- The offset of the data block with a signed number. -/
def dataBlock (fs : FileSystem) (number : Int) : Nat :=
  (numBytesInFourKb * (int32 fs.inodeCount + number + 1) % 2 ^ 32).toNat

end FileSystem

/-- One directory entry of the boot block. -/
structure Dentry where
  filename : Nat → UInt8
  filetype : Nat
  inodeNum : Nat

namespace FileSystem

def direntries (fs : FileSystem) (index : Nat) : Dentry where
  filename := fun position => fs.byte (64 + 64 * index + position)
  filetype := fs.word (64 + 64 * index + 32)
  inodeNum := fs.word (64 + 64 * index + 36)

end FileSystem

/-- The loads that `read_data` makes from the image, by offset. -/
inductive Load where
  | field (offset : Nat)
  | entry (index offset : Nat)
  | data (position offset : Nat)

/-- The bytes that one load touches. -/
def Load.bytes : Load → List Nat
  | .field offset => [offset, offset + 1, offset + 2, offset + 3]
  | .entry _ offset => [offset, offset + 1, offset + 2, offset + 3]
  | .data _ offset => [offset]

def Load.isData : Load → Bool
  | .data _ _ => true
  | _ => false

structure ReadOutcome where
  result : Int
  buf : Nat → UInt8
  loads : List Load

/-- The local variables of `read_data`. -/
structure ReadState where
  count : Nat
  offset : Nat
  indexInInode : Nat
  indexInDataBlock : Nat
  buf : Nat → UInt8
  loads : List Load

/-- The guard of the inner loop compares as unsigned, so natural numbers give the same test. -/
def copyGuard (fs : FileSystem) (inode length : Nat) (state : ReadState) : Bool :=
  state.count < length && state.indexInDataBlock < numBytesInFourKb &&
    state.offset < fs.inodeLength inode

def copyByte (fs : FileSystem) (dataBlock : Nat) (state : ReadState) : ReadState where
  count := state.count + 1
  offset := state.offset + 1
  indexInInode := state.indexInInode
  indexInDataBlock := state.indexInDataBlock + 1
  buf := Function.update state.buf state.count (fs.byte (dataBlock + state.indexInDataBlock))
  loads := .data state.count ((dataBlock + state.indexInDataBlock) % 2 ^ 32) :: state.loads

/-- One round of the outer loop reads one data block. -/
def readBlock (fs : FileSystem) (inode length : Nat) (state : ReadState) :
    ReadOutcome ⊕ ReadState :=
  let number := fs.dataBlockNum inode state.indexInInode
  let looked := { state with
    loads := .entry state.indexInInode (FileSystem.entryOffset inode state.indexInInode) ::
      state.loads }
  if int32 fs.dataCount ≤ number then .inl ⟨-1, looked.buf, looked.loads⟩
  else
    let copied := whileLoop (copyGuard fs inode length) (copyByte fs (fs.dataBlock number))
      numBytesInFourKb looked
    if length ≤ copied.count ∨ fs.inodeLength inode ≤ copied.offset then
      .inl ⟨int32 copied.count, copied.buf, copied.loads⟩
    else
      .inr { copied with indexInDataBlock := 0, indexInInode := copied.indexInInode + 1 }

/-- The fuel covers every file length that 32 bits can store. -/
def readData (fs : FileSystem) (inode offset : Word) (buf : Nat → UInt8) (length : Word) :
    Option ReadOutcome :=
  let loads := [Load.field 4]
  if fs.inodeCount ≤ inode.toNat then some ⟨-1, buf, loads⟩
  else
    let loads := .field (FileSystem.inodeBlock inode.toNat) :: loads
    if fs.inodeLength inode.toNat ≤ offset.toNat then some ⟨0, buf, loads⟩
    else
      returnLoop (readBlock fs inode.toNat length.toNat) (2 ^ 20 + 1)
        { count := 0
          offset := offset.toNat
          indexInInode := offset.toNat / numBytesInFourKb
          indexInDataBlock := offset.toNat % numBytesInFourKb
          buf := buf
          loads := .field 8 :: loads }

end ComputerSystems.Kernel
