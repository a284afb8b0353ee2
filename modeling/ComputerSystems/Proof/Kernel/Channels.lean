import ComputerSystems.Library.Slots
import ComputerSystems.Proof.Kernel.Deeds
import ComputerSystems.Proof.Kernel.DescriptorTable
import ComputerSystems.Proof.Kernel.LoadedPrograms

namespace ComputerSystems.Kernel
open ComputerSystems.Library

/-- What an open descriptor stands for: the terminal, the bytes of a file from a position on, the
names of the directory from a position on, or a clock with its rate. -/
inductive Channel where
  | terminal
  | file (reader : Reader UInt8)
  | listing (position : Nat)
  | clock (rate : Word)

abbrev Channels : Type := Slots 8 Channel

/-- What a call reports to its process. -/
structure Reply where
  result : Int
  bytes : List UInt8
  deriving DecidableEq

namespace FileSystem

/-- The listed entry with a name. -/
def entryOf (fs : FileSystem) (name : List UInt8) : Option Nat :=
  (List.range fs.dirCount).find? fun index => (fs.direntries index).fullName == name

/-- What a fresh descriptor of an entry stands for. -/
def channel (fs : FileSystem) (index : Nat) : Channel :=
  if (fs.direntries index).filetype = 0 then .clock 2
  else if (fs.direntries index).filetype = 1 then .listing 0
  else .file (.start (entryData fs index))

end FileSystem

namespace Channels

/-- The standard descriptors are those of the terminal. -/
def fresh : Channels := fun index => if index < 2 then some .terminal else none

def descriptor : Option (Fin 8) → Int
  | none => -1
  | some index => index.val

/-- A clock takes two descriptors, and the second one is reported. -/
def connect (channel : Channel) (channels : Channels) : Int × Channels :=
  match channel with
  | .clock rate =>
      let first := channels.allocate 2 (.clock rate)
      match first.1 with
      | none => (-1, first.2)
      | some _ =>
          let second := first.2.allocate 2 (.clock rate)
          (descriptor second.1, second.2)
  | channel =>
      let allocated := channels.allocate 2 channel
      (descriptor allocated.1, allocated.2)

def openName (fs : FileSystem) (filename : Option CString) (channels : Channels) :
    Int × Channels :=
  match filename.bind fun name => fs.entryOf name.bytes with
  | none => (-1, channels)
  | some index => channels.connect (fs.channel index)

def close (fd : Int) (channels : Channels) : Int × Channels :=
  match fdIndex fd with
  | none => (-1, channels)
  | some index =>
      match channels index with
      | none => (-1, channels)
      | some .terminal => (-1, channels)
      | some _ => (0, channels.release index)

/-- A read of a number of bytes. The names of the directory come whole, and the terminal delivers
nothing on its output. -/
def read (fs : FileSystem) (fd : Int) (count : Nat) (channels : Channels) : Reply × Channels :=
  match fdIndex fd with
  | none => (⟨-1, []⟩, channels)
  | some index =>
      match channels index with
      | none => (⟨-1, []⟩, channels)
      | some .terminal => (⟨-1, []⟩, channels)
      | some (.file reader) =>
          (⟨(reader.piece count).length, reader.piece count⟩,
            Function.update channels index (some (.file (reader.advance count))))
      | some (.listing position) =>
          if position < numFiles then
            let name := (fs.direntries position).fullName
            (⟨name.length, name⟩,
              Function.update channels index (some (.listing (position + 1))))
          else (⟨-1, []⟩, channels)
      | some (.clock _) => (⟨0, []⟩, channels)

/-- Only the terminal and a clock can be written, and a clock takes a rate. -/
def write (fd : Int) (buf : Option (Nat → UInt8)) (nbytes : Int) (channels : Channels) :
    Int × Channels :=
  match fdIndex fd with
  | none => (-1, channels)
  | some index =>
      match channels index with
      | some .terminal =>
          (if index = 0 ∨ buf.isNone then -1 else nbytes.toNat, channels)
      | some (.clock _) =>
          match buf with
          | none => (-1, channels)
          | some bytes =>
              let freq := requestedRate bytes
              if nbytes = 4 ∧ 2 ≤ freq ∧ freq ≤ 1024 ∧ freq.toNat &&& (freq.toNat - 1) = 0 then
                (4, Function.update channels index (some (.clock (BitVec.ofInt 32 freq))))
              else (-1, channels)
      | _ => (-1, channels)

/-- A read of the keyboard takes the front of what was typed. A count above the size of the buffer
is as good as that size, and null gets nothing. -/
def readTyped (buf : Option (Nat → UInt8)) (nbytes : Int) (terminal : Terminal) : Reply :=
  match buf with
  | none => ⟨-1, []⟩
  | some _ =>
      let line := (List.range terminal.charsInBuffer).map terminal.buffer
      let bytes := line.take (BitVec.ofInt 32 (min nbytes terminalBufferSize)).toNat
      ⟨bytes.length, bytes⟩

/-- One call on the channels. Descriptor zero is the keyboard of the terminal of the process. -/
def serve (fs : FileSystem) (terminal : Fin 3) (session : Channels × List Reply) :
    FileCall → Channels × List Reply
  | .sysOpen filename =>
      let opened := session.1.openName fs filename
      (opened.2, session.2 ++ [⟨opened.1, []⟩])
  | .sysClose fd =>
      let closed := session.1.close fd
      (closed.2, session.2 ++ [⟨closed.1, []⟩])
  | .sysRead fd buf nbytes _ _ entered =>
      if fd = 0 then
        (session.1, session.2 ++ [readTyped buf nbytes (entered.terminals terminal)])
      else
        let taken := session.1.read fs fd (BitVec.ofInt 32 nbytes).toNat
        (taken.2, session.2 ++ [taken.1])
  | .sysWrite fd buf nbytes _ =>
      let written := session.1.write fd buf nbytes
      (written.2, session.2 ++ [⟨written.1, []⟩])

end Channels

/-- One file call with what it reports. -/
def replyStep (fs : FileSystem) (session : CallState × List Reply) :
    FileCall → Except Stop (CallState × List Reply)
  | .sysOpen filename =>
      let opened := sysOpen fs filename session.1.pcb.fileArray
      .ok ({ session.1 with pcb := { session.1.pcb with fileArray := opened.2 } },
        session.2 ++ [⟨opened.1, []⟩])
  | .sysClose fd =>
      (sysClose fd session.1.pcb.fileArray).map fun closed =>
        ({ session.1 with pcb := { session.1.pcb with fileArray := closed.2 } },
          session.2 ++ [⟨closed.1, []⟩])
  | .sysRead fd buf nbytes called tested entered =>
      (sysRead fs fd buf nbytes tested entered { session.1 with console := called }).map fun read =>
        (read.2.2, session.2 ++
          [⟨read.1, (List.range read.1.toNat).map (read.2.1.getD fun _ => 0)⟩])
  | .sysWrite fd buf nbytes called =>
      (sysWrite fd buf nbytes { session.1 with console := called }).map fun written =>
        (written.2, session.2 ++ [⟨written.1, []⟩])

/-- The reports leave the call as it is. -/
theorem replyStep_fileCall (fs : FileSystem) (session : CallState × List Reply) (call : FileCall) :
    (replyStep fs session call).map Prod.fst = fileCall fs session.1 call := by
  cases call with
  | sysOpen filename => rfl
  | sysClose fd =>
      rw [replyStep, fileCall]
      cases sysClose fd session.1.pcb.fileArray <;> rfl
  | sysRead fd buf nbytes called tested entered =>
      rw [replyStep, fileCall]
      cases sysRead fs fd buf nbytes tested entered { session.1 with console := called } <;> rfl
  | sysWrite fd buf nbytes called =>
      rw [replyStep, fileCall]
      cases sysWrite fd buf nbytes { session.1 with console := called } <;> rfl

/-- The entry of the table behind a channel. -/
inductive StandsFor (fs : FileSystem) : FileT → Option Channel → Prop where
  | free {entry : FileT} (free : entry.flags = .fileAvail) : StandsFor fs entry none
  | terminal (inode position : Word) :
      StandsFor fs ⟨.terminalOps, inode, position, .fileOccup⟩ (some .terminal)
  | file {reader : Reader UInt8} {entry : FileT} (reads : ReadsFrom fs reader entry) :
      StandsFor fs entry (some (.file reader))
  | listing (inode position : Word) (inside : position.toNat ≤ numFiles) :
      StandsFor fs ⟨.directoryOps, inode, position, .fileOccup⟩ (some (.listing position.toNat))
  | clock (inode rate : Word) (running : rate ≠ 0) :
      StandsFor fs ⟨.rtcOps, inode, rate, .fileOccup⟩ (some (.clock rate))

/-- The descriptor table and the channels of a process agree. -/
structure Represented (fs : FileSystem) (fileArray : FileArray) (channels : Channels) : Prop where
  entry : ∀ index, StandsFor fs (fileArray index) (channels index)
  low : ∀ index : Fin 8, channels index = some .terminal ↔ index < 2

section
variable {fs : FileSystem} {fileArray : FileArray} {channels : Channels} {index : Fin 8}

theorem represented_fresh (fs : FileSystem) :
    Represented fs (initFileArray blank) Channels.fresh where
  entry index := by
    unfold initFileArray Channels.fresh
    by_cases low : index = 0 ∨ index = 1
    · rw [if_pos low, if_pos (by omega)]
      exact .terminal 0 0
    · rw [if_neg low, if_neg (by omega)]
      exact .free rfl
  low index := by
    unfold Channels.fresh
    split_ifs with low <;> simp [low]

theorem StandsFor.free_iff {entry : FileT} {channel : Option Channel}
    (stands : StandsFor fs entry channel) : entry.flags = .fileAvail ↔ channel.isNone := by
  cases stands with
  | free free => simp [free]
  | terminal inode position => simp
  | file reads => simp [reads.opened]
  | listing inode position inside => simp
  | clock inode rate running => simp

/-- Both tables have the same free slots, so the same one is taken next. -/
theorem Represented.lowest (represented : Represented fs fileArray channels) :
    firstAvail fileArray = channels.lowest 2 := by
  unfold firstAvail Slots.lowest
  congr 1
  funext index
  exact decide_eq_decide.2 (and_congr_right fun _ => (represented.entry index).free_iff)

theorem Represented.update (represented : Represented fs fileArray channels) (large : 2 ≤ index)
    {entry : FileT} {channel : Option Channel} (stands : StandsFor fs entry channel)
    (other : channel ≠ some .terminal) :
    Represented fs (Function.update fileArray index entry)
      (Function.update channels index channel) where
  entry place := by
    by_cases same : place = index
    · rw [same, Function.update_self, Function.update_self]
      exact stands
    · rw [Function.update_of_ne same, Function.update_of_ne same]
      exact represented.entry place
  low place := by
    by_cases same : place = index
    · rw [same, Function.update_self]
      exact iff_of_false other (by omega)
    · rw [Function.update_of_ne same]
      exact represented.low place

theorem Represented.large (represented : Represented fs fileArray channels) {channel : Channel}
    (seen : channels index = some channel) (other : channel ≠ .terminal) : 2 ≤ index := by
  by_contra low
  have standard := (represented.low index).2 (by omega)
  rw [seen] at standard
  exact other (Option.some.inj standard)

theorem Represented.allocate (represented : Represented fs fileArray channels) {dentry : Dentry}
    {channel : Channel} (stands : StandsFor fs (openedEntry dentry) (some channel))
    (other : channel ≠ .terminal) :
    (allocate dentry fileArray).1 =
        Channels.descriptor (Slots.allocate 2 channel channels).1 ∧
      Represented fs (allocate dentry fileArray).2 (Slots.allocate 2 channel channels).2 := by
  unfold Kernel.allocate Slots.allocate
  rw [represented.lowest]
  cases found : Slots.lowest 2 channels with
  | none => exact ⟨rfl, represented⟩
  | some index =>
      have large : 2 ≤ index := (Slots.lowest_free found).1
      exact ⟨rfl, represented.update large stands fun same => other (Option.some.inj same)⟩

/-- A fresh descriptor of a listed entry stands for the channel of the entry. -/
theorem standsFor_channel (valid : ValidImage fs) {index : Nat} (listed : index < fs.dirCount) :
    StandsFor fs (openedEntry (fs.direntries index)) (some (fs.channel index)) := by
  unfold openedEntry FileSystem.channel
  split_ifs with device directory
  · exact .clock _ 2 (by decide)
  · exact .listing _ 0 (Nat.zero_le _)
  · have known := valid.known index listed
    have sound := valid.sound index listed (by omega)
    have count := fs.word_lt 4
    rw [← FileSystem.inodeCount] at count
    have number : (BitVec.ofNat 32 (fs.direntries index).inodeNum).toNat =
        (fs.direntries index).inodeNum := Nat.mod_eq_of_lt (sound.inRange.trans count)
    have reads := readsFrom_start (number.symm ▸ sound)
    rw [number] at reads
    exact .file reads

theorem FileSystem.channel_ne (fs : FileSystem) (index : Nat) :
    fs.channel index ≠ .terminal := by
  unfold FileSystem.channel
  split_ifs <;> exact fun same => Channel.noConfusion same

theorem FileSystem.entryOf_eq_some (listed : ListedImage fs) {name : CString} {index : Nat} :
    fs.entryOf name.bytes = some index ↔ Names fs name index := by
  unfold FileSystem.entryOf
  rw [List.find?_range_eq_some]
  constructor
  · rintro ⟨same, inside, _⟩
    exact ⟨List.mem_range.1 inside, eq_of_beq same⟩
  · rintro ⟨inside, same⟩
    refine ⟨beq_iff_eq.2 same, List.mem_range.2 inside, fun earlier before => ?_⟩
    rw [Bool.not_eq_true', beq_eq_false_iff_ne]
    intro again
    have equal := listed.distinct earlier (before.trans inside) index inside
      (again.trans same.symm)
    omega

theorem Represented.connect (represented : Represented fs fileArray channels)
    (valid : ValidImage fs) {filename : Option CString} {index : Nat}
    (opens : Openable fs filename (fs.direntries index)) (listed : index < fs.dirCount) :
    (Kernel.sysOpen fs filename fileArray).1 = (channels.connect (fs.channel index)).1 ∧
      Represented fs (Kernel.sysOpen fs filename fileArray).2
        (channels.connect (fs.channel index)).2 := by
  have stands := standsFor_channel valid listed
  have other := fs.channel_ne index
  have once := represented.allocate stands other
  rw [sysOpen_openable opens]
  by_cases device : (fs.direntries index).filetype = 0
  · have clock : fs.channel index = .clock 2 := if_pos device
    rw [clock] at stands once other ⊢
    rw [if_pos device, Channels.connect]
    have twice := once.2.allocate stands other
    rw [once.1]
    cases taken : (Slots.allocate 2 (.clock 2) channels).1 with
    | none => exact ⟨rfl, once.2⟩
    | some first =>
        rw [if_neg (by rw [Channels.descriptor]; omega)]
        exact twice
  · rw [if_neg device]
    unfold FileSystem.channel at once ⊢
    rw [if_neg device] at once ⊢
    split_ifs at once ⊢ <;> exact once

/-- An open takes the same descriptors on both sides. -/
theorem Represented.sysOpen (represented : Represented fs fileArray channels)
    (valid : ValidImage fs) (filename : Option CString) :
    (Kernel.sysOpen fs filename fileArray).1 = (channels.openName fs filename).1 ∧
      Represented fs (Kernel.sysOpen fs filename fileArray).2
        (channels.openName fs filename).2 := by
  have listed := valid.toListedImage
  have refused (rejected : ∀ dentry, ¬Openable fs filename dentry) :
      (Kernel.sysOpen fs filename fileArray).1 = -1 ∧
        Represented fs (Kernel.sysOpen fs filename fileArray).2 channels := by
    rw [sysOpen_rejected rejected]
    exact ⟨rfl, represented⟩
  unfold Channels.openName
  cases filename with
  | none =>
      refine refused fun dentry opens => ?_
      obtain ⟨name, missing, _⟩ := opens.short
      cases missing
  | some name =>
      dsimp only [Option.bind]
      cases found : fs.entryOf name.bytes with
      | none =>
          refine refused (listed.rejected fun index names => ?_)
          rw [(FileSystem.entryOf_eq_some listed).2 names] at found
          cases found
      | some index =>
          have names := (FileSystem.entryOf_eq_some listed).1 found
          exact represented.connect valid (names.openable listed) names.1

/-- A close frees the same descriptor on both sides. -/
theorem Represented.sysClose (represented : Represented fs fileArray channels) {fd : Int}
    {closed : Int × FileArray} (finished : Kernel.sysClose fd fileArray = .ok closed) :
    closed.1 = (channels.close fd).1 ∧ Represented fs closed.2 (channels.close fd).2 := by
  unfold Kernel.sysClose at finished
  unfold Channels.close
  by_cases standard : fd < 2
  · rw [if_pos standard] at finished
    cases finished
    cases found : fdIndex fd with
    | none => exact ⟨rfl, represented⟩
    | some index =>
        have low : index < 2 := by
          rw [fdIndex_eq_some] at found
          omega
        dsimp only
        rw [(represented.low index).2 low]
        exact ⟨rfl, represented⟩
  · rw [if_neg standard] at finished
    cases found : fdIndex fd with
    | none =>
        rw [found] at finished
        cases finished
        exact ⟨rfl, represented⟩
    | some index =>
        have large : 2 ≤ index := by
          rw [fdIndex_eq_some] at found
          omega
        rw [found] at finished
        dsimp only at finished ⊢
        have released := represented.update large (@StandsFor.free fs blank rfl)
          (Option.some_ne_none _).symm
        have stands := represented.entry index
        generalize same : fileArray index = entry at stands finished
        generalize seen : channels index = channel at stands
        cases stands with
        | free free =>
            rw [if_pos free] at finished
            cases finished
            exact ⟨rfl, represented⟩
        | terminal inode position =>
            have low := (represented.low index).1 seen
            omega
        | file reads =>
            rw [if_neg (by rw [reads.opened]; decide), reads.table] at finished
            dsimp only at finished
            rw [fileClose, same, if_neg (by rw [reads.opened]; decide)] at finished
            cases finished
            exact ⟨rfl, released⟩
        | listing inode position inside =>
            rw [if_neg (by simp)] at finished
            dsimp only at finished
            rw [directoryClose, fileClose, same, if_neg (by simp)] at finished
            cases finished
            exact ⟨rfl, released⟩
        | clock inode rate running =>
            rw [if_neg (by simp)] at finished
            dsimp only at finished
            rw [rtcClose, same, if_neg (by simp)] at finished
            cases finished
            exact ⟨rfl, released⟩

/-- A read that stores nothing has nothing to deliver. -/
theorem ReadsFrom.stores {reader : Reader UInt8}
    (reads : ReadsFrom fs reader (fileArray index)) {count : Word}
    (stores : fileStores fs index count fileArray = false) : reader.piece count.toNat = [] := by
  by_contra present
  have some : 0 < (reader.piece count.toNat).length := List.length_pos_iff.2 present
  rw [← reads.slice, sliceLength] at some
  split_ifs at some with past
  · omega
  obtain ⟨outcome, returned, spec⟩ := readData_spec fs (fileArray index).inodeNum
    (fileArray index).filePosition count (fun _ => 0) reads.sound.inRange (Nat.lt_of_not_le past)
  unfold fileStores at stores
  rw [returned] at stores
  dsimp only at stores
  rw [List.any_eq_false] at stores
  refine stores _ ((spec.data 0 _).2 ⟨some, fun position lower upper => ?_, rfl⟩) rfl
  have pass := reads.sound.passes (Nat.lt_of_not_le past) count.toNat
  refine pass position lower (upper.trans ?_)
  exact Nat.div_le_div_right (Nat.add_le_add_left (Nat.zero_le _) _)

/-- A read of a file delivers the next piece. -/
theorem Represented.fileRead (represented : Represented fs fileArray channels) (large : 2 ≤ index)
    {reader : Reader UInt8} (reads : ReadsFrom fs reader (fileArray index))
    {buf : Option (Nat → UInt8)} {count : Word} {read : Int × (Nat → UInt8) × FileArray}
    (kept : ¬(buf.isNone ∧ fileStores fs index count fileArray = true))
    (finished : Kernel.fileRead fs index (buf.getD fun _ => 0) count fileArray = some read) :
    read.1 = (reader.piece count.toNat).length ∧
      (List.range read.1.toNat).map ((buf.map fun _ => read.2.1).getD fun _ => 0) =
        reader.piece count.toNat ∧
      Represented fs read.2.2
        (Function.update channels index (some (.file (reader.advance count.toNat)))) := by
  obtain ⟨outcome, returned, result, stored⟩ := reads.readData count (buf.getD fun _ => 0)
  unfold Kernel.fileRead at finished
  rw [if_neg (by omega), returned] at finished
  cases finished
  dsimp only
  rw [result, Int.toNat_natCast]
  refine ⟨rfl, ?_, represented.update large (.file (reads.advance count.toNat))
    fun same => Channel.noConfusion (Option.some.inj same)⟩
  cases buf with
  | none =>
      have nothing := reads.stores (Bool.eq_false_iff.2 fun stores => kept ⟨rfl, stores⟩)
      rw [nothing]
      rfl
  | some bytes => exact delivered_piece _ bytes _ stored

/-- A read of the directory delivers the name of the next entry. -/
theorem Represented.directoryRead (represented : Represented fs fileArray channels)
    (large : 2 ≤ index) {inode position : Word} (inside : position.toNat < numFiles)
    (same : fileArray index = ⟨.directoryOps, inode, position, .fileOccup⟩) (bytes : Nat → UInt8) :
    ∃ buf after, Kernel.directoryRead fs index bytes fileArray =
        (((fs.direntries position.toNat).fullName.length : Int), buf, after) ∧
      (List.range (fs.direntries position.toNat).fullName.length).map buf =
        (fs.direntries position.toNat).fullName ∧
      Represented fs after
        (Function.update channels index (some (.listing (position.toNat + 1)))) := by
  have found : fs.readDentryByIndex (fileArray index).filePosition.toNat =
      some (fs.direntries position.toNat) := by
    rw [same]
    exact if_neg (Nat.not_le_of_lt inside)
  obtain ⟨buf, after, read, stored, rfl⟩ := directoryRead_some found bytes
  refine ⟨buf, _, read, ?_, ?_⟩
  · apply List.ext_getElem
    · rw [List.length_map, List.length_range]
    · intro place _ within
      rw [List.getElem_map, List.getElem_range, stored, if_pos within]
      have held : (fs.direntries position.toNat).fullName[place]? =
          some ((fs.direntries position.toNat).filename (0 + place)) :=
        field_getElem? filenameLen 0 place within
      rw [List.getElem?_eq_getElem within, Nat.zero_add] at held
      exact (Option.some.inj held).symm
  · have next : (position + 1).toNat = position.toNat + 1 := by
      rw [BitVec.toNat_add]
      change (position.toNat + 1) % 2 ^ 32 = _
      dsimp only [numFiles] at inside
      omega
    rw [same, ← next]
    refine represented.update large (.listing inode (position + 1) ?_)
      fun same => Channel.noConfusion (Option.some.inj same)
    rw [next]
    exact inside

theorem rate_ne_zero (freq : Int) (allowed : 2 ≤ freq ∧ freq ≤ 1024) :
    BitVec.ofInt 32 freq ≠ 0 := by
  intro zero
  have value : (BitVec.ofInt 32 freq).toNat = 0 := congrArg BitVec.toNat zero
  rw [BitVec.toNat_ofInt] at value
  omega

/-- A write acts on the terminal or sets the rate of the same clock. -/
theorem Represented.sysWrite {state : CallState}
    (represented : Represented fs state.pcb.fileArray channels) {fd nbytes : Int}
    {buf : Option (Nat → UInt8)} {written : Int × CallState}
    (finished : Kernel.sysWrite fd buf nbytes state = .ok written) :
    written.1 = (channels.write fd buf nbytes).1 ∧
      Represented fs written.2.pcb.fileArray (channels.write fd buf nbytes).2 := by
  unfold Kernel.sysWrite at finished
  unfold Channels.write
  cases found : fdIndex fd with
  | none =>
      rw [found] at finished
      cases finished
      exact ⟨rfl, represented⟩
  | some index =>
      rw [found] at finished
      dsimp only at finished ⊢
      have stands := represented.entry index
      generalize same : state.pcb.fileArray index = entry at stands finished
      generalize seen : channels index = channel at stands
      cases stands with
      | free free =>
          rw [if_pos free] at finished
          cases finished
          exact ⟨rfl, represented⟩
      | terminal inode position =>
          rw [if_neg (by simp)] at finished
          cases finished
          refine ⟨?_, represented⟩
          unfold terminalWrite
          by_cases standard : index = 0
          · rw [if_pos standard, if_pos (.inl standard)]
          · cases buf with
            | none => rw [if_neg standard, if_pos (.inr rfl)]
            | some bytes => rw [if_neg standard, if_neg (by simp [standard])]
      | file reads =>
          rw [if_neg (by simp [reads.opened]), reads.table] at finished
          cases finished
          exact ⟨rfl, represented⟩
      | listing inode position inside =>
          rw [if_neg (by simp)] at finished
          cases finished
          exact ⟨rfl, represented⟩
      | clock inode rate running =>
          rw [if_neg (by simp)] at finished
          cases finished
          have large := represented.large seen Channel.noConfusion
          dsimp only [Kernel.rtcWrite]
          cases buf with
          | none => exact ⟨rfl, represented⟩
          | some bytes =>
              dsimp only
              by_cases four : nbytes = 4
              · by_cases outside : requestedRate bytes < 2 ∨ requestedRate bytes > 1024 ∨
                  (requestedRate bytes).toNat &&& ((requestedRate bytes).toNat - 1) ≠ 0
                · rw [if_neg (not_not.2 four), if_pos outside, if_neg (by omega)]
                  exact ⟨rfl, represented⟩
                · rw [if_neg (not_not.2 four), if_neg outside, if_pos (by omega), same]
                  exact ⟨rfl, represented.update large (.clock inode _ (rate_ne_zero _ (by omega)))
                    fun same => Channel.noConfusion (Option.some.inj same)⟩
              · rw [if_pos four, if_neg fun allowed => four allowed.1]
                exact ⟨rfl, represented⟩

/-- The copy of the input is the front of the line. -/
theorem readTyped_eq (nbytes : Int) (terminal : Terminal) (bytes : Nat → UInt8) :
    let length := readLength (clipLength nbytes) terminal
    (⟨length, (List.range length).map (copyInput length terminal bytes)⟩ : Reply) =
      Channels.readTyped (some bytes) nbytes terminal := by
  intro length
  have count : (BitVec.ofInt 32 (min nbytes terminalBufferSize)).toNat =
      (clipLength nbytes % 2 ^ 32).toNat := by
    rw [BitVec.toNat_ofInt]
    unfold clipLength
    simp only [terminalBufferSize]
    split_ifs <;> omega
  have shorter : length = min (clipLength nbytes % 2 ^ 32).toNat terminal.charsInBuffer := by
    change readLength _ _ = _
    unfold readLength
    split_ifs <;> omega
  have copied : (List.range length).map (copyInput length terminal bytes) =
      (List.range length).map terminal.buffer := by
    apply List.map_congr_left
    intro place inside
    rw [copyInput_eq, if_pos (List.mem_range.1 inside)]
  rw [copied, Channels.readTyped, count, ← List.map_take, List.take_range, ← shorter,
    List.length_map, List.length_range]

/-- A read of the keyboard reports what was typed and leaves the table as it is. -/
theorem Represented.sysRead_keyboard {state : CallState}
    (represented : Represented fs state.pcb.fileArray channels) {nbytes : Int}
    {buf : Option (Nat → UInt8)} {tested entered : Console}
    {read : Int × Option (Nat → UInt8) × CallState}
    (finished : Kernel.sysRead fs 0 buf nbytes tested entered state = .ok read) :
    (⟨read.1, (List.range read.1.toNat).map (read.2.1.getD fun _ => 0)⟩ : Reply) =
        Channels.readTyped buf nbytes (entered.terminals state.pcb.terminalIndex) ∧
      Represented fs read.2.2.pcb.fileArray channels := by
  unfold Kernel.sysRead at finished
  rw [show fdIndex 0 = some 0 by decide] at finished
  dsimp only at finished
  have stands := represented.entry 0
  rw [(represented.low 0).2 (by decide)] at stands
  generalize state.pcb.fileArray 0 = entry at stands finished
  cases stands with
  | terminal inode position =>
      rw [if_neg (by simp)] at finished
      dsimp only at finished
      split at finished
      · cases finished
      next taken =>
        cases finished
        refine ⟨?_, represented⟩
        cases buf with
        | none =>
            cases taken
            rfl
        | some bytes =>
            unfold terminalRead at taken
            rw [if_neg (by decide)] at taken
            dsimp only at taken
            split_ifs at taken
            cases taken
            exact readTyped_eq nbytes _ bytes

/-- A read of another descriptor than the keyboard reports what its channel delivers. -/
theorem Represented.sysRead {state : CallState}
    (represented : Represented fs state.pcb.fileArray channels) {fd nbytes : Int} (other : fd ≠ 0)
    {buf : Option (Nat → UInt8)} {tested entered : Console}
    {read : Int × Option (Nat → UInt8) × CallState}
    (finished : Kernel.sysRead fs fd buf nbytes tested entered state = .ok read) :
    (⟨read.1, (List.range read.1.toNat).map (read.2.1.getD fun _ => 0)⟩ : Reply) =
        (channels.read fs fd (BitVec.ofInt 32 nbytes).toNat).1 ∧
      Represented fs read.2.2.pcb.fileArray
        (channels.read fs fd (BitVec.ofInt 32 nbytes).toNat).2 := by
  unfold Kernel.sysRead at finished
  unfold Channels.read
  cases found : fdIndex fd with
  | none =>
      rw [found] at finished
      cases finished
      exact ⟨rfl, represented⟩
  | some index =>
      rw [found] at finished
      dsimp only at finished ⊢
      have stands := represented.entry index
      generalize same : state.pcb.fileArray index = entry at stands finished
      generalize seen : channels index = channel at stands
      cases stands with
      | free free =>
          rw [if_pos free] at finished
          cases finished
          exact ⟨rfl, represented⟩
      | terminal inode position =>
          have one : index = 1 := by
            have low := (represented.low index).1 seen
            rw [fdIndex_eq_some] at found
            omega
          rw [if_neg (by simp), one] at finished
          cases finished
          exact ⟨rfl, represented⟩
      | file reads =>
          rw [if_neg (by simp [reads.opened]), reads.table] at finished
          dsimp only at finished ⊢
          split_ifs at finished with missing
          split at finished
          · cases finished
          next taken returned =>
            cases finished
            rw [← same] at reads
            have large := represented.large seen Channel.noConfusion
            obtain ⟨result, bytes, kept⟩ := represented.fileRead large reads missing returned
            rw [← result, ← bytes]
            exact ⟨rfl, kept⟩
      | listing inode position inside =>
          rw [if_neg (by simp)] at finished
          dsimp only at finished ⊢
          by_cases within : position.toNat < numFiles
          · rw [if_pos within]
            have large := represented.large seen Channel.noConfusion
            obtain ⟨stored, after, returned, name, kept⟩ :=
              represented.directoryRead large within same (buf.getD fun _ => 0)
            rw [returned] at finished
            split_ifs at finished with missing
            cases finished
            cases buf with
            | none =>
                refine absurd ⟨rfl, ?_⟩ missing
                unfold directoryStores FileSystem.readDentryByIndex
                rw [same, if_neg (Nat.not_le_of_lt within)]
                rfl
            | some bytes =>
                dsimp only [Option.map_some, Option.getD_some]
                rw [Int.toNat_natCast, name]
                exact ⟨rfl, kept⟩
          · rw [if_neg within]
            have beyond : fs.readDentryByIndex
                (state.pcb.fileArray index).filePosition.toNat = none := by
              rw [same]
              exact if_pos (Nat.le_of_not_lt within)
            rw [directoryRead_none beyond] at finished
            split_ifs at finished
            cases finished
            exact ⟨rfl, represented⟩
      | clock inode rate running =>
          rw [if_neg (by simp)] at finished
          dsimp only at finished ⊢
          split at finished
          · cases finished
          next taken returned =>
            cases finished
            rw [rtcRead, Option.map_eq_some_iff] at returned
            obtain ⟨period, _, rfl⟩ := returned
            dsimp only
            rw [rtcWait_fileArray]
            exact ⟨rfl, represented⟩

/-- A read into a buffer returns, unless it waits for the keyboard. -/
theorem Represented.sysRead_returns {state : CallState}
    (represented : Represented fs state.pcb.fileArray channels) {fd nbytes : Int}
    (other : fd ≠ 0) (bytes : Nat → UInt8) (tested entered : Console) :
    ∃ read, Kernel.sysRead fs fd (some bytes) nbytes tested entered state = .ok read := by
  unfold Kernel.sysRead
  cases found : fdIndex fd with
  | none => exact ⟨_, rfl⟩
  | some index =>
      dsimp only
      have stands := represented.entry index
      generalize same : state.pcb.fileArray index = entry at stands
      generalize seen : channels index = channel at stands
      cases stands with
      | free free =>
          rw [if_pos free]
          exact ⟨_, rfl⟩
      | terminal inode position =>
          have one : index = 1 := by
            have low := (represented.low index).1 seen
            rw [fdIndex_eq_some] at found
            omega
          rw [if_neg (by simp), one]
          exact ⟨_, rfl⟩
      | file reads =>
          have large := represented.large seen Channel.noConfusion
          rw [if_neg (by simp [reads.opened]), reads.table]
          dsimp only
          rw [if_neg (by simp), Kernel.fileRead, if_neg (by omega), same]
          obtain ⟨outcome, returned, _⟩ := reads.readData (BitVec.ofInt 32 nbytes) bytes
          rw [Option.getD_some, returned]
          exact ⟨_, rfl⟩
      | listing inode position inside =>
          rw [if_neg (by simp)]
          dsimp only
          rw [if_neg (by simp)]
          exact ⟨_, rfl⟩
      | clock inode rate running =>
          rw [if_neg (by simp)]
          dsimp only
          rw [rtcRead, rtcPeriod, same, if_neg running]
          exact ⟨_, rfl⟩

theorem Represented.sysClose_returns (represented : Represented fs fileArray channels) (fd : Int) :
    ∃ closed, Kernel.sysClose fd fileArray = .ok closed := by
  unfold Kernel.sysClose
  split_ifs
  · exact ⟨_, rfl⟩
  · cases fdIndex fd with
    | none => exact ⟨_, rfl⟩
    | some index =>
        dsimp only
        have stands := represented.entry index
        generalize fileArray index = entry at stands
        generalize channels index = channel at stands
        cases stands with
        | free free =>
            rw [if_pos free]
            exact ⟨_, rfl⟩
        | file reads =>
            rw [if_neg (by simp [reads.opened]), reads.table]
            exact ⟨_, rfl⟩
        | terminal inode position => exact ⟨_, if_neg (by simp)⟩
        | listing inode position inside => exact ⟨_, if_neg (by simp)⟩
        | clock inode rate running => exact ⟨_, if_neg (by simp)⟩

/-- Every call replies and changes the table as the channels do. -/
theorem Represented.step {state next : CallState} {replies after : List Reply} {call : FileCall}
    (represented : Represented fs state.pcb.fileArray channels) (valid : ValidImage fs)
    (finished : replyStep fs (state, replies) call = .ok (next, after)) :
    let served := Channels.serve fs state.pcb.terminalIndex (channels, replies) call
    Represented fs next.pcb.fileArray served.1 ∧ after = served.2 ∧
      next.pcb.terminalIndex = state.pcb.terminalIndex := by
  cases call with
  | sysOpen filename =>
      cases finished
      obtain ⟨result, kept⟩ := represented.sysOpen valid filename
      exact ⟨kept, by rw [Channels.serve, result], rfl⟩
  | sysClose fd =>
      cases called : Kernel.sysClose fd state.pcb.fileArray with
      | error stop =>
          rw [replyStep, called] at finished
          cases finished
      | ok closed =>
          rw [replyStep, called] at finished
          cases finished
          obtain ⟨result, kept⟩ := represented.sysClose called
          exact ⟨kept, by rw [Channels.serve, result], rfl⟩
  | sysRead fd buf nbytes console tested entered =>
      cases called : Kernel.sysRead fs fd buf nbytes tested entered
          { state with console := console } with
      | error stop =>
          rw [replyStep, called] at finished
          cases finished
      | ok read =>
          rw [replyStep, called] at finished
          cases finished
          have before : Represented fs
            ({ state with console := console } : CallState).pcb.fileArray channels := represented
          obtain ⟨_, ⟨fileArray, rtcCount, own⟩, _⟩ := sysRead_own called
          have terminal := congrArg Pcb.terminalIndex own
          rw [Channels.serve]
          by_cases keyboard : fd = 0
          · rw [if_pos keyboard]
            rw [keyboard] at called
            obtain ⟨reply, kept⟩ := before.sysRead_keyboard called
            exact ⟨kept, by rw [reply], terminal⟩
          · rw [if_neg keyboard]
            obtain ⟨reply, kept⟩ := before.sysRead keyboard called
            exact ⟨kept, by rw [reply], terminal⟩
  | sysWrite fd buf nbytes console =>
      cases called : Kernel.sysWrite fd buf nbytes { state with console := console } with
      | error stop =>
          rw [replyStep, called] at finished
          cases finished
      | ok written =>
          rw [replyStep, called] at finished
          cases finished
          have before : Represented fs
            ({ state with console := console } : CallState).pcb.fileArray channels := represented
          obtain ⟨result, kept⟩ := before.sysWrite called
          obtain ⟨fileArray, rtcCount, own⟩ := (sysWrite_own called).1
          have terminal := congrArg Pcb.terminalIndex own
          exact ⟨kept, by rw [Channels.serve, result], terminal⟩

end

/-- Whatever a process calls, its calls report what the channels do: names open files, the
directory and clocks, reads deliver their bytes piece by piece and what was typed at the terminal,
and closed descriptors are free again. -/
theorem fileCalls_refine {fs : FileSystem} (valid : ValidImage fs) {pcb : Pcb} {console : Console}
    {calls : List FileCall} {final : CallState × List Reply}
    (reached : run (replyStep fs) (freshProcess pcb console, []) calls = .ok final) :
    let session := calls.foldl (Channels.serve fs pcb.terminalIndex) (Channels.fresh, [])
    Represented fs final.1.pcb.fileArray session.1 ∧ final.2 = session.2 := by
  let agree (state : CallState × List Reply) (session : Channels × List Reply) : Prop :=
    Represented fs state.1.pcb.fileArray session.1 ∧ state.2 = session.2 ∧
      state.1.pcb.terminalIndex = pcb.terminalIndex
  have start : agree (freshProcess pcb console, []) (Channels.fresh, []) :=
    ⟨represented_fresh fs, rfl, rfl⟩
  have kept := run_simulates agree (Channels.serve fs pcb.terminalIndex) ?_ start reached
  · exact ⟨kept.1, kept.2.1⟩
  · rintro ⟨state, replies⟩ call ⟨next, after⟩ ⟨channels, _⟩ ⟨represented, rfl, terminal⟩ finished
    obtain ⟨further, reported, same⟩ := represented.step valid finished
    dsimp only at terminal
    rw [terminal] at further reported same
    exact ⟨further, reported, same⟩

/-- A line was typed at the first terminal. -/
def typedConsole : Console :=
  coldMachine.console.setTerminal 0 { coldMachine.console.terminals 0 with
    charsInBuffer := 3
    buffer := fun place => [104, 105, 10].getD place 0 }

/-- The program is opened and read in two pieces, its descriptor is closed and taken again, and the
line is read from the keyboard. -/
def channelCalls : List FileCall :=
  let console := coldMachine.console
  [.sysOpen (some shellName), .sysRead 2 (some fun _ => 0) 3 console console console,
    .sysRead 2 (some fun _ => 0) 9 console console console, .sysClose 2, .sysClose 2,
    .sysOpen (some shellName), .sysRead 0 (some fun _ => 0) 9 console typedConsole typedConsole,
    .sysRead 1 (some fun _ => 0) 9 console console console]

/-- The replies to these calls. -/
def channelReplies : List Reply :=
  [⟨2, []⟩, ⟨3, [0x7F, 0x45, 0x4C]⟩, ⟨1, [0x46]⟩, ⟨0, []⟩, ⟨-1, []⟩, ⟨2, []⟩,
    ⟨3, [104, 105, 10]⟩, ⟨-1, []⟩]

theorem fileCalls_refine_shell : ∃ final,
    run (replyStep countedImage) (freshProcess zeroPcb coldMachine.console, []) channelCalls =
      .ok final ∧ final.2 = channelReplies ∧
    final.2 = (channelCalls.foldl (Channels.serve countedImage 0) (Channels.fresh, [])).2 := by
  have passed : runCheck (replyStep countedImage)
      (freshProcess zeroPcb coldMachine.console, []) channelCalls
      (fun final => final.2 = channelReplies) = true := by
    decide +kernel
  obtain ⟨final, reached, replies⟩ := runCheck_sound passed
  exact ⟨final, reached, of_decide_eq_true replies,
    (fileCalls_refine countedImage_valid reached).2⟩

end ComputerSystems.Kernel
