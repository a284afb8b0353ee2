import ComputerSystems.Construction.Kernel.State

namespace ComputerSystems.Kernel
open ComputerSystems.Library

/-- The entry that `init_vfs` sets. -/
def blank : FileT := ⟨.null, 0, 0, .fileAvail⟩

/-- The standard entries of the table read and write the terminal. -/
def initFileArray (blank : FileT) : FileArray := fun index =>
  if index = 0 ∨ index = 1 then ⟨.terminalOps, 0, 0, .fileOccup⟩ else blank

/-- The `int8_t` value of a byte. -/
def int8 (byte : UInt8) : Int := if byte.toNat < 2 ^ 7 then byte.toNat else byte.toNat - 2 ^ 8

def strncmp (first second : Nat → UInt8) (index : Nat) : Nat → Int
  | 0 => 0
  | count + 1 =>
      if first index ≠ second index ∨ first index = 0 then int8 (first index) - int8 (second index)
      else strncmp first second (index + 1) count

namespace FileSystem

def readDentryByIndex (fs : FileSystem) (index : Nat) : Option Dentry :=
  if numFiles ≤ index then none else some (fs.direntries index)

/-- A null pointer is no string. -/
def readDentryByName (fs : FileSystem) (fname : Option CString) : Option Dentry :=
  match fname with
  | none => none
  | some name =>
      if name.get 0 = 0 then none
      else
        ((List.range numFiles).find? fun index =>
          strncmp name.get (fs.direntries index).filename 0 filenameLen = 0).map fs.direntries

end FileSystem

/-- `load_program` as it acts on the memory from `ptr` on. -/
def loadProgramAt (fs : FileSystem) (filename : CString) (ptr : Nat → UInt8) :
    Option (Int × (Nat → UInt8)) :=
  if 33 ≤ filename.bytes.length then some (-1, ptr)
  else
    match fs.readDentryByName (some filename) with
    | none => some (-1, ptr)
    | some newDent =>
        if newDent.filetype ≠ 2 then some (-1, ptr)
        else
          let size := fs.inodeLength newDent.inodeNum
          match readData fs (BitVec.ofNat 32 newDent.inodeNum) 0 ptr (BitVec.ofNat 32 size) with
          | none => none
          | some outcome =>
              if outcome.result % 2 ^ 32 ≠ size then some (-1, outcome.buf)
              else if outcome.buf 0 ≠ 0x7F ∨ outcome.buf 1 ≠ 0x45 ∨ outcome.buf 2 ≠ 0x4C ∨
                  outcome.buf 3 ≠ 0x46 then
                some (-1, outcome.buf)
              else some (0, outcome.buf)

/-- The search for an open entry starts after the standard entries. -/
def firstAvail (fileArray : FileArray) : Option (Fin 8) :=
  Fin.find? fun index => 2 ≤ index ∧ (fileArray index).flags = .fileAvail

/-- The rate of a fresh descriptor is two hertz. -/
def rtcOpen (fd : Fin 8) (fileArray : FileArray) : FileArray :=
  Function.update fileArray fd { fileArray fd with filePosition := 2, flags := .fileOccup }

def fileOpen (fs : FileSystem) (filename : Option CString) (fileArray : FileArray) :
    Int × FileArray :=
  match filename with
  | none => (-1, fileArray)
  | some name =>
      if 33 ≤ name.bytes.length then (-1, fileArray)
      else
        match fs.readDentryByName (some name) with
        | none => (-1, fileArray)
        | some newDent =>
            match firstAvail fileArray with
            | none => (-1, fileArray)
            | some index =>
                let inode := BitVec.ofNat 32 newDent.inodeNum
                if newDent.filetype = 2 then
                  (index.val, Function.update fileArray index ⟨.fileOps, inode, 0, .fileOccup⟩)
                else if newDent.filetype = 1 then
                  (index.val,
                    Function.update fileArray index ⟨.directoryOps, inode, 0, .fileOccup⟩)
                else if newDent.filetype = 0 then
                  (index.val, rtcOpen index (Function.update fileArray index
                    { fileArray index with fileOpsTablePtr := .rtcOps, inodeNum := inode }))
                else (-1, fileArray)

def directoryOpen (fs : FileSystem) (filename : Option CString) (fileArray : FileArray) :
    Int × FileArray :=
  match fs.readDentryByName filename with
  | none => (-1, fileArray)
  | some newDent =>
      if newDent.filetype ≠ 1 then (-1, fileArray) else fileOpen fs filename fileArray

/-- The bounds of `fd` are those of its type. -/
def fileClose (fd : Fin 8) (fileArray : FileArray) : Int × FileArray :=
  if (fileArray fd).flags = .fileAvail then (-1, fileArray)
  else (0, Function.update fileArray fd blank)

def directoryClose (fd : Fin 8) (fileArray : FileArray) : Int × FileArray :=
  fileClose fd fileArray

/-- A failed `read_data` also moves the position, by minus one. -/
def fileRead (fs : FileSystem) (fd : Fin 8) (buf : Nat → UInt8) (nbytes : Word)
    (fileArray : FileArray) : Option (Int × (Nat → UInt8) × FileArray) :=
  if fd = 1 ∨ fd = 0 then some (-1, buf, fileArray)
  else
    (readData fs (fileArray fd).inodeNum (fileArray fd).filePosition buf nbytes).map fun outcome =>
      (outcome.result, outcome.buf, Function.update fileArray fd
        { fileArray fd with
          filePosition := (fileArray fd).filePosition + BitVec.ofInt 32 outcome.result })

/-- Whether `file_read` stores a byte through its buffer. -/
def fileStores (fs : FileSystem) (fd : Fin 8) (nbytes : Word) (fileArray : FileArray) : Bool :=
  match readData fs (fileArray fd).inodeNum (fileArray fd).filePosition (fun _ => 0) nbytes with
  | none => false
  | some outcome => outcome.loads.any Load.isData

def fileWrite : Int := -1

/-- The local variables of the loop in `directory_read`. -/
structure NameState where
  position : Nat
  buf : Nat → UInt8

/-- The loop of `directory_read` copies the name up to its terminator. -/
def copyName (filename : Nat → UInt8) (buf : Nat → UInt8) : NameState :=
  whileLoop (fun state => filename state.position != 0 && state.position < filenameLen)
    (fun state => ⟨state.position + 1,
      Function.update state.buf state.position (filename state.position)⟩)
    filenameLen ⟨0, buf⟩

/-- The requested number of bytes plays no part. -/
def directoryRead (fs : FileSystem) (fd : Fin 8) (buf : Nat → UInt8) (fileArray : FileArray) :
    Int × (Nat → UInt8) × FileArray :=
  match fs.readDentryByIndex (fileArray fd).filePosition.toNat with
  | none => (-1, buf, fileArray)
  | some newDent =>
      let copied := copyName newDent.filename buf
      (copied.position, Function.update copied.buf copied.position 0,
        Function.update fileArray fd
          { fileArray fd with filePosition := (fileArray fd).filePosition + 1 })

/-- Whether `directory_read` stores a byte through its buffer. -/
def directoryStores (fs : FileSystem) (fd : Fin 8) (fileArray : FileArray) : Bool :=
  (fs.readDentryByIndex (fileArray fd).filePosition.toNat).isSome

def directoryWrite : Int := -1

/-- The position of an RTC entry is its rate. A zero rate divides by zero. -/
def rtcPeriod (entry : FileT) : Option Int :=
  if entry.filePosition = 0 then none else some (Int.tdiv 1024 entry.filePosition.toInt)

/-- One RTC interrupt as it acts on one process. -/
def rtcTick (pcb : Pcb) : Pcb :=
  if pcb.rtcCount ≠ 0 then { pcb with rtcCount := pcb.rtcCount - 1 } else pcb

/-- The wait loop of `rtc_read` goes on until the interrupts have counted down. -/
def rtcWait (pcb : Pcb) : Pcb :=
  whileLoop (fun current => current.rtcCount != 0) rtcTick pcb.rtcCount pcb

def rtcRead (fd : Fin 8) (pcb : Pcb) : Option (Int × Pcb) :=
  (rtcPeriod (pcb.fileArray fd)).map fun period =>
    (0, rtcWait { pcb with rtcCount := (period % 2 ^ 32).toNat })

/-- The four bytes of the buffer form a signed rate. -/
def requestedRate (bytes : Nat → UInt8) : Int :=
  int32 ((bytes 0).toNat + 2 ^ 8 * (bytes 1).toNat + 2 ^ 16 * (bytes 2).toNat +
    2 ^ 24 * (bytes 3).toNat)

def rtcWrite (fd : Fin 8) (buf : Option (Nat → UInt8)) (nbytes : Int) (fileArray : FileArray) :
    Int × FileArray :=
  match buf with
  | none => (-1, fileArray)
  | some bytes =>
      if nbytes ≠ 4 then (-1, fileArray)
      else
        let freq := requestedRate bytes
        if freq < 2 ∨ freq > 1024 ∨ freq.toNat &&& (freq.toNat - 1) ≠ 0 then (-1, fileArray)
        else
          (4, Function.update fileArray fd
            { fileArray fd with filePosition := BitVec.ofInt 32 freq })

def rtcClose (fd : Fin 8) (fileArray : FileArray) : Int × FileArray :=
  if (fileArray fd).flags = .fileAvail then (-1, fileArray)
  else (0, Function.update fileArray fd ⟨.null, 0, 0, .fileAvail⟩)

end ComputerSystems.Kernel
