import ComputerSystems.Library.Reader
import ComputerSystems.Library.Run
import ComputerSystems.Proof.Kernel.DescriptorTable
import ComputerSystems.Proof.Kernel.DirectoryNames
import ComputerSystems.Proof.Kernel.ProcessTable
import ComputerSystems.Proof.Kernel.ReadDataSlice

namespace ComputerSystems.Kernel
open ComputerSystems.Library

/-- The bytes of a regular file, block by block. -/
def fileData (fs : FileSystem) (inode : Nat) : List UInt8 :=
  (List.range (fs.inodeLength inode)).map fun position =>
    fs.byte ((1 + fs.inodeCount + (fs.dataBlockNum inode (position / 4096)).toNat) * 4096 +
      position % 4096)

theorem fileData_length (fs : FileSystem) (inode : Nat) :
    (fileData fs inode).length = fs.inodeLength inode := by
  rw [fileData, List.length_map, List.length_range]

/-- A descriptor that refers to a sound file reads like the reader of its bytes. -/
structure ReadsFrom (fs : FileSystem) (reader : Reader UInt8) (entry : FileT) : Prop where
  table : entry.fileOpsTablePtr = .fileOps
  opened : entry.flags = .fileOccup
  sound : SoundInode fs entry.inodeNum.toNat
  data : reader.data = fileData fs entry.inodeNum.toNat
  position : entry.filePosition.toNat = reader.position

/-- A fresh descriptor of a sound file is at the start of its bytes. -/
theorem readsFrom_start {fs : FileSystem} {inode : Word} (sound : SoundInode fs inode.toNat) :
    ReadsFrom fs (.start (fileData fs inode.toNat)) ⟨.fileOps, inode, 0, .fileOccup⟩ :=
  ⟨rfl, rfl, sound, rfl, rfl⟩

section
variable {fs : FileSystem} {reader : Reader UInt8} {entry : FileT}

theorem ReadsFrom.length (reads : ReadsFrom fs reader entry) :
    reader.data.length = fs.inodeLength entry.inodeNum.toNat := by
  rw [reads.data, fileData_length]

theorem ReadsFrom.slice (reads : ReadsFrom fs reader entry) (count : Nat) :
    sliceLength fs entry.inodeNum.toNat entry.filePosition.toNat count =
      (reader.piece count).length := by
  have inData := reader.inData
  rw [reads.length] at inData
  rw [reader.piece_length, reads.length, sliceLength, reads.position]
  split <;> omega

/-- One call of `read_data` delivers the next piece of the reader. -/
theorem ReadsFrom.readData (reads : ReadsFrom fs reader entry) (count : Word)
    (buf : Nat → UInt8) :
    ∃ outcome, Kernel.readData fs entry.inodeNum entry.filePosition buf count = some outcome ∧
      outcome.result = (reader.piece count.toNat).length ∧
      ∀ place, outcome.buf place = ((reader.piece count.toNat)[place]?).getD (buf place) := by
  obtain ⟨outcome, returned, result, bytes, rest, _⟩ :=
    readData_slice fs entry.inodeNum entry.filePosition count buf reads.sound
  rw [reads.slice] at result bytes rest
  refine ⟨outcome, returned, result, fun place => ?_⟩
  by_cases inside : place < (reader.piece count.toNat).length
  · have within := inside
    rw [reader.piece_length, reads.length] at within
    rw [bytes place inside, reader.piece_getElem? inside, reads.data, reads.position, fileData,
      List.getElem?_map, List.getElem?_range (by omega)]
    rfl
  · rw [rest place (Nat.le_of_not_lt inside), List.getElem?_eq_none (Nat.le_of_not_lt inside)]
    rfl

/-- The position of the descriptor follows the reader. -/
theorem ReadsFrom.advance (reads : ReadsFrom fs reader entry) (count : Nat) :
    ReadsFrom fs (reader.advance count) { entry with
      filePosition := entry.filePosition +
        BitVec.ofInt 32 ((reader.piece count).length : Int) } where
  table := reads.table
  opened := reads.opened
  sound := reads.sound
  data := reads.data
  position := by
    have small := fs.word_lt (FileSystem.inodeBlock entry.inodeNum.toNat)
    rw [← FileSystem.inodeLength, ← reads.length] at small
    have inData := (reader.advance count).inData
    rw [reader.advance_position] at inData ⊢
    change reader.position + (reader.piece count).length ≤ reader.data.length at inData
    have position := reads.position
    rw [BitVec.ofInt_natCast, BitVec.toNat_add, BitVec.toNat_ofNat]
    omega

end

/-- A read of a nonnegative count on such a descriptor returns the next piece. -/
theorem sysRead_piece {fs : FileSystem} {reader : Reader UInt8} {fd : Int} {index : Fin 8}
    {state : CallState} (descriptor : fdIndex fd = some index) (high : 2 ≤ index)
    (reads : ReadsFrom fs reader (state.pcb.fileArray index)) (bytes : Nat → UInt8)
    (nbytes : Int) (range : 0 ≤ nbytes ∧ nbytes < 2 ^ 31) (tested entered : Console) :
    ∃ buf after, sysRead fs fd (some bytes) nbytes tested entered state =
        .ok ((reader.piece nbytes.toNat).length, some buf, after) ∧
      (∀ place, buf place = ((reader.piece nbytes.toNat)[place]?).getD (bytes place)) ∧
      ReadsFrom fs (reader.advance nbytes.toNat) (after.pcb.fileArray index) := by
  have count : (BitVec.ofInt 32 nbytes).toNat = nbytes.toNat := by
    rw [BitVec.toNat_ofInt]
    omega
  obtain ⟨outcome, returned, result, stored⟩ := reads.readData (BitVec.ofInt 32 nbytes) bytes
  rw [count] at result stored
  have read : fileRead fs index bytes (BitVec.ofInt 32 nbytes) state.pcb.fileArray =
      some (outcome.result, outcome.buf, Function.update state.pcb.fileArray index
        { state.pcb.fileArray index with filePosition :=
          (state.pcb.fileArray index).filePosition + BitVec.ofInt 32 outcome.result }) := by
    unfold fileRead
    rw [if_neg (by omega), returned]
    rfl
  have call : sysRead fs fd (some bytes) nbytes tested entered state =
      .ok (outcome.result, some outcome.buf, { state with pcb := { state.pcb with
        fileArray := Function.update state.pcb.fileArray index
          { state.pcb.fileArray index with filePosition :=
            (state.pcb.fileArray index).filePosition + BitVec.ofInt 32 outcome.result } } }) := by
    unfold sysRead
    simp [descriptor, reads.opened, reads.table, read]
  rw [result] at call
  refine ⟨_, _, call, stored, ?_⟩
  dsimp only
  rw [Function.update_self]
  exact reads.advance nbytes.toNat

/-- A read on another descriptor leaves the entry alone. -/
theorem sysRead_other {fs : FileSystem} {fd nbytes : Int} {index : Fin 8}
    {buf : Option (Nat → UInt8)} {tested entered : Console} {state : CallState}
    (different : fdIndex fd ≠ some index) {read : Int × Option (Nat → UInt8) × CallState}
    (finished : sysRead fs fd buf nbytes tested entered state = .ok read) :
    read.2.2.pcb.fileArray index = state.pcb.fileArray index := by
  unfold sysRead at finished
  cases descriptor : fdIndex fd with
  | none =>
      rw [descriptor] at finished
      cases finished
      rfl
  | some other =>
      have apart : index ≠ other := fun same => different (by rw [descriptor, same])
      rw [descriptor] at finished
      dsimp only at finished
      split at finished
      · cases finished
        rfl
      · split at finished
        · split at finished
          · cases finished
          · cases finished
            rfl
        · split at finished
          · cases finished
          · split at finished
            · cases finished
            · next taken returned =>
              cases finished
              unfold fileRead at returned
              split at returned
              · cases returned
                rfl
              · rw [Option.map_eq_some_iff] at returned
                obtain ⟨outcome, _, rfl⟩ := returned
                exact Function.update_of_ne apart ..
        · split at finished
          · cases finished
          · cases finished
            unfold directoryRead
            dsimp only
            split
            · rfl
            · exact Function.update_of_ne apart ..
        · split at finished
          · cases finished
          · next taken returned =>
            cases finished
            rw [rtcRead, Option.map_eq_some_iff] at returned
            obtain ⟨period, _, rfl⟩ := returned
            exact congrFun (rtcWait_fileArray _) index
        · cases finished
        · cases finished

/-- The arguments of one call of `read` with the consoles that interrupts leave around it. -/
structure ReadCall where
  fd : Int
  buf : Option (Nat → UInt8)
  nbytes : Int
  called : Console
  tested : Console
  entered : Console

/-- A process that reads, with the counts, the results, and the delivered bytes of its reads on one
descriptor in order. -/
structure Session where
  state : CallState
  counts : List Nat
  results : List Int
  pieces : List (List UInt8)

/-- A read on the descriptor of the session records its count, its result and its bytes. -/
def readStep (fs : FileSystem) (fd : Int) (session : Session) (call : ReadCall) :
    Except Stop Session :=
  (sysRead fs call.fd call.buf call.nbytes call.tested call.entered
    { session.state with console := call.called }).map fun read =>
      if call.fd = fd then
        { state := read.2.2
          counts := session.counts ++ [call.nbytes.toNat]
          results := session.results ++ [read.1]
          pieces := session.pieces ++
            [(List.range read.1.toNat).map fun place => (read.2.1.getD fun _ => 0) place] }
      else { session with state := read.2.2 }

/-- A read on the descriptor has a buffer and a nonnegative count. -/
def SoundRead (fd : Int) (call : ReadCall) : Prop :=
  call.fd = fd → call.buf.isSome ∧ 0 ≤ call.nbytes ∧ call.nbytes < 2 ^ 31

/-- The reads so far have delivered a prefix of the file, and the next read goes on from there. -/
structure DeliversPrefix (fs : FileSystem) (inode : Nat) (index : Fin 8) (session : Session) :
    Prop where
  delivered : session.pieces.flatten =
    (fileData fs inode).take (min session.counts.sum (fs.inodeLength inode))
  counted : session.results = session.pieces.map fun piece => (piece.length : Int)
  position : (session.state.pcb.fileArray index).filePosition.toNat =
    session.pieces.flatten.length
  next : ∀ (fd nbytes : Int) (bytes : Nat → UInt8) (called tested entered : Console),
    fdIndex fd = some index → 0 ≤ nbytes → nbytes < 2 ^ 31 → ∃ (result : Nat) (buf : Nat → UInt8)
      (after : CallState), sysRead fs fd (some bytes) nbytes tested entered
          { session.state with console := called } = .ok (result, some buf, after) ∧
        result = min nbytes.toNat (fs.inodeLength inode - session.pieces.flatten.length) ∧
        (∀ place < result, some (buf place) =
          (fileData fs inode)[session.pieces.flatten.length + place]?) ∧
        ∀ place, result ≤ place → buf place = bytes place

/-- The reader that has consumed the counts of a session. -/
def sessionReader (fs : FileSystem) (inode : Nat) (counts : List Nat) : Reader UInt8 :=
  (Reader.start (fileData fs inode)).advance counts.sum

/-- What a session keeps from read to read. -/
structure TracksReader (fs : FileSystem) (inode : Nat) (index : Fin 8) (session : Session) :
    Prop where
  reads : ReadsFrom fs (sessionReader fs inode session.counts)
    (session.state.pcb.fileArray index)
  consumed : session.pieces.flatten = (sessionReader fs inode session.counts).consumed
  counted : session.results = session.pieces.map fun piece => (piece.length : Int)

theorem sessionReader_append (fs : FileSystem) (inode : Nat) (counts : List Nat) (count : Nat) :
    sessionReader fs inode (counts ++ [count]) =
      (sessionReader fs inode counts).advance count := by
  rw [sessionReader, sessionReader, Reader.advance_advance, List.sum_append, List.sum_singleton]

/-- The bytes that a read reports are the piece of the reader. -/
theorem delivered_piece (piece : List UInt8) (bytes buf : Nat → UInt8)
    (stored : ∀ place, buf place = (piece[place]?).getD (bytes place)) :
    (List.range piece.length).map buf = piece := by
  apply List.ext_getElem
  · rw [List.length_map, List.length_range]
  · intro place _ inside
    rw [List.getElem_map, List.getElem_range, stored, List.getElem?_eq_getElem inside]
    rfl

theorem fdIndex_eq_some (fd : Int) (index : Fin 8) :
    fdIndex fd = some index ↔ fd = (index.val : Int) := by
  unfold fdIndex
  split
  · rw [Option.some_inj, Fin.ext_iff]
    dsimp only
    omega
  · constructor
    · intro impossible
      cases impossible
    · intro same
      omega

/-- Every read keeps the session on its reader. -/
theorem TracksReader.step {fs : FileSystem} {inode : Nat} {fd : Int} {index : Fin 8}
    (descriptor : fdIndex fd = some index) (high : 2 ≤ index) {session next : Session}
    {call : ReadCall} (tracks : TracksReader fs inode index session) (sound : SoundRead fd call)
    (stepped : readStep fs fd session call = .ok next) : TracksReader fs inode index next := by
  unfold readStep at stepped
  by_cases own : call.fd = fd
  · obtain ⟨present, range⟩ := sound own
    obtain ⟨bytes, buffer⟩ := Option.isSome_iff_exists.1 present
    have reads : ReadsFrom fs (sessionReader fs inode session.counts)
      (({ session.state with console := call.called } : CallState).pcb.fileArray index) :=
      tracks.reads
    obtain ⟨buf, after, read, stored, kept⟩ := sysRead_piece descriptor high reads bytes
      call.nbytes range call.tested call.entered
    rw [buffer, own, read] at stepped
    rw [Except.map, if_pos rfl, Int.toNat_natCast, Option.getD_some,
      delivered_piece _ bytes buf stored] at stepped
    cases stepped
    constructor
    case reads =>
      rw [sessionReader_append]
      exact kept
    case consumed =>
      rw [sessionReader_append, Reader.advance_consumed, List.flatten_append, tracks.consumed,
        List.flatten_singleton]
    case counted =>
      rw [tracks.counted, List.map_append]
      rfl
  · cases read : sysRead fs call.fd call.buf call.nbytes call.tested call.entered
        { session.state with console := call.called } with
    | error stop =>
        rw [read] at stepped
        cases stepped
    | ok outcome =>
        rw [read, Except.map, if_neg own] at stepped
        cases stepped
        have other : fdIndex call.fd ≠ some index := by
          intro same
          rw [fdIndex_eq_some] at same descriptor
          exact own (same.trans descriptor.symm)
        have entry := sysRead_other other read
        refine ⟨?_, tracks.consumed, tracks.counted⟩
        rw [entry]
        exact tracks.reads

theorem TracksReader.deliversPrefix {fs : FileSystem} {inode : Nat} {index : Fin 8}
    (high : 2 ≤ index) {session : Session} (tracks : TracksReader fs inode index session) :
    DeliversPrefix fs inode index session := by
  have position : session.pieces.flatten.length =
      (sessionReader fs inode session.counts).position := by
    rw [tracks.consumed, Reader.consumed_length]
  constructor
  case delivered =>
    rw [tracks.consumed, Reader.consumed, ← fileData_length fs inode]
    congr 1
    exact congrArg (min · _) (Nat.zero_add _)
  case counted => exact tracks.counted
  case position => rw [tracks.reads.position, position]
  case next =>
    intro fd nbytes bytes called tested entered descriptor low limit
    have reads : ReadsFrom fs (sessionReader fs inode session.counts)
      (({ session.state with console := called } : CallState).pcb.fileArray index) :=
      tracks.reads
    obtain ⟨buf, after, read, stored, _⟩ := sysRead_piece descriptor high reads bytes nbytes
      ⟨low, limit⟩ tested entered
    refine ⟨_, buf, after, read, ?_, fun place inside => ?_, fun place beyond => ?_⟩
    · rw [Reader.piece_length, position, ← fileData_length fs inode]
      rfl
    · have value := Reader.piece_getElem? (sessionReader fs inode session.counts) inside
      rw [stored, position]
      change _ = (sessionReader fs inode session.counts).data[_]?
      rw [← value, List.getElem?_eq_getElem inside]
      rfl
    · rw [stored, List.getElem?_eq_none beyond]
      rfl

/-- Reads in pieces deliver a file in order, whatever other descriptors are read in between. -/
theorem reads_deliverPrefix (fs : FileSystem) (inode : Word) (fd : Int) (index : Fin 8)
    (state : CallState) (calls : List ReadCall) (session : Session)
    (sound : SoundInode fs inode.toNat) (descriptor : fdIndex fd = some index) (high : 2 ≤ index)
    (opened : state.pcb.fileArray index = ⟨.fileOps, inode, 0, .fileOccup⟩)
    (legal : ∀ call ∈ calls, SoundRead fd call)
    (reached : run (readStep fs fd) ⟨state, [], [], []⟩ calls = .ok session) :
    DeliversPrefix fs inode.toNat index session := by
  have initial : TracksReader fs inode.toNat index ⟨state, [], [], []⟩ := by
    constructor
    case reads =>
      rw [opened]
      change ReadsFrom fs ((Reader.start (fileData fs inode.toNat)).advance 0) _
      rw [Reader.advance_zero]
      exact readsFrom_start sound
    case consumed =>
      change [] = ((Reader.start (fileData fs inode.toNat)).advance 0).consumed
      rw [Reader.advance_zero]
      rfl
    case counted => rfl
  apply TracksReader.deliversPrefix high
  exact run_invariant (TracksReader fs inode.toNat index)
    (fun session call next tracks sound stepped => tracks.step descriptor high sound stepped)
    initial (along_of_forall (readStep fs fd) _ calls legal) reached

/-- A process that has opened the file of the small image. -/
def fileProcess : CallState where
  pcb := { zeroPcb with
    fileArray := Function.update (initFileArray blank) 2 ⟨.fileOps, 0, 0, .fileOccup⟩ }
  console := coldMachine.console

/-- Two reads on the file with a refused read on another descriptor between them. -/
def pieceCalls : List ReadCall :=
  [(2, 2), (1, 7), (2, 9)].map fun (fd, nbytes) =>
    ⟨fd, some fun _ => 0, nbytes, coldMachine.console, coldMachine.console, coldMachine.console⟩

/-- Two reads of two and nine bytes deliver the five bytes of the file. -/
theorem reads_deliverPrefix_small : ∃ session, DeliversPrefix smallFileSystem 0 2 session ∧
    session.results = [2, 3] := by
  have passed : runCheck (readStep smallFileSystem 2) ⟨fileProcess, [], [], []⟩ pieceCalls
      (fun session => session.results == [2, 3]) = true := by
    decide +kernel
  obtain ⟨session, reached, results⟩ := runCheck_sound passed
  exact ⟨session, reads_deliverPrefix smallFileSystem 0 2 2 fileProcess pieceCalls session
    smallFileSystem_sound rfl (by decide) rfl (by simp [pieceCalls, SoundRead]) reached,
    by simpa using results⟩

end ComputerSystems.Kernel
