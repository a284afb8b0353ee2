import ComputerSystems.Construction.User.Programs
import ComputerSystems.Proof.Kernel.ChannelReads
import ComputerSystems.Proof.Kernel.CommandLine
import ComputerSystems.Proof.Kernel.Deeds

namespace ComputerSystems.User

open Grep (ascii newline)
open Kernel
open Library

/-- What a program has reached since its start: the channels of its descriptors, and the text on the
terminal. Without interrupts the text is all that the console shows. -/
structure Ran (setting : Setting) (start : Process) (channels : Channels) (text : List UInt8)
    (process : Process) : Prop where
  represented : Represented setting.fs process.state.pcb.fileArray channels
  own : OwnFiles start.state.pcb process.state.pcb
  printed : process.printed = start.printed ++ text
  shown : (∀ count console, setting.before count console = console) →
    process.state.console = text.foldl (fun console byte =>
      terminalPutc byte attrib start.state.pcb.terminalIndex console) start.state.console

/-- A read of another descriptor than the keyboard leaves the console alone. -/
theorem sysRead_aside {fs : FileSystem} {channels : Channels} {state : CallState} {fd nbytes : Int}
    (represented : Represented fs state.pcb.fileArray channels) (other : fd ≠ 0)
    {buf : Option (Nat → UInt8)} {tested entered : Console}
    {read : Int × Option (Nat → UInt8) × CallState}
    (finished : sysRead fs fd buf nbytes tested entered state = .ok read) :
    read.2.2.console = state.console := by
  rcases (sysRead_own finished).2.2 with same | ⟨index, descriptor, occupied, terminal, taken⟩
  · exact same
  · have stands := represented.entry index
    generalize state.pcb.fileArray index = entry at stands occupied terminal
    generalize seen : channels index = channel at stands
    cases stands with
    | free free => exact absurd free occupied
    | terminal inode position =>
        have one : index = 1 := by
          have low := (represented.low index).1 seen
          rw [fdIndex_eq_some] at descriptor
          omega
        rw [one] at taken
        exact (congrArg (fun read => read.2.2) (Option.some.inj taken)).symm
    | file reads => exact OpsTable.noConfusion (reads.table.symm.trans terminal)
    | listing inode position inside => cases terminal
    | clock inode rate running => cases terminal

section
variable {setting : Setting} {start process : Process} {channels : Channels} {text : List UInt8}

theorem ran_start (table : start.state.pcb.fileArray = initFileArray blank) :
    Ran setting start Channels.fresh [] start where
  represented := table ▸ represented_fresh setting.fs
  own := ⟨_, _, rfl⟩
  printed := (List.append_nil _).symm
  shown := fun _ => rfl

theorem Ran.meet (ran : Ran setting start channels text process) :
    Ran setting start channels text (setting.meet process) where
  represented := ran.represented
  own := ran.own
  printed := ran.printed
  shown quiet := (quiet _ _).trans (ran.shown quiet)

theorem Ran.ece391Open (ran : Ran setting start channels text process)
    (valid : ValidImage setting.fs) (filename : CString) :
    Ends (ece391Open setting filename) process fun fd next =>
      fd = (channels.openName setting.fs (some filename)).1 ∧
        Ran setting start (channels.openName setting.fs (some filename)).2 text next := by
  obtain ⟨result, represented⟩ := ran.meet.represented.sysOpen valid (some filename)
  refine ⟨_, _, rfl, result, represented, ran.own.trans ⟨_, _, rfl⟩, ran.printed, ?_⟩
  exact ran.meet.shown

/-- A read of a file, of the directory or of a clock fills the front of the array. -/
theorem Ran.ece391Read (ran : Ran setting start channels text process) {fd nbytes : Int}
    (other : fd ≠ 0) (buf : Buffer) :
    Ends (ece391Read setting fd buf nbytes) process fun outcome next =>
      (⟨outcome.1, (List.range outcome.1.toNat).map outcome.2⟩ : Reply) =
          (channels.read setting.fs fd (BitVec.ofInt 32 nbytes).toNat).1 ∧
        Ran setting start (channels.read setting.fs fd (BitVec.ofInt 32 nbytes).toNat).2 text
          next := by
  have met := ran.meet
  obtain ⟨read, finished⟩ := @Represented.sysRead_returns _ _ _ met.represented fd nbytes other buf
    (setting.tested process.calls (setting.meet process).state.console)
    (setting.entered process.calls (setting.meet process).state.console)
  obtain ⟨reply, represented⟩ := met.represented.sysRead other finished
  obtain ⟨filled, own, _⟩ := sysRead_own finished
  have console := sysRead_aside met.represented other finished
  obtain ⟨bytes, filled⟩ := Option.isSome_iff_exists.1 filled
  refine ⟨(read.1, read.2.1.getD buf), { setting.meet process with state := read.2.2 }, ?_, ?_,
    represented, met.own.trans own, met.printed, fun quiet => console.trans (met.shown quiet)⟩
  · unfold User.ece391Read
    dsimp only
    rw [finished]
  · rw [← reply, filled]
    rfl

/-- A write to the terminal appends to the text. -/
theorem Ran.ece391Write (ran : Ran setting start channels text process) (buf : Buffer)
    (count : Nat) :
    Ends (ece391Write setting 1 buf count) process fun written next =>
      written = count ∧
        Ran setting start channels (text ++ (List.range count).map buf) next := by
  have met := ran.meet
  have standard : channels 1 = some .terminal := (ran.represented.low 1).2 (by decide)
  have stands := met.represented.entry 1
  rw [standard] at stands
  generalize same : (setting.meet process).state.pcb.fileArray 1 = entry at stands
  cases stands with
  | terminal inode position =>
      have wrote : sysWrite 1 (some buf) count (setting.meet process).state =
          .ok ((count : Int), { (setting.meet process).state with
            console := ((List.range count).map buf).foldl (fun console byte =>
              terminalPutc byte attrib (setting.meet process).state.pcb.terminalIndex console)
              (setting.meet process).state.console }) := by
        have found : fdIndex 1 = some 1 := by decide
        unfold sysWrite
        rw [found]
        dsimp only
        rw [same, if_neg (by simp)]
        dsimp only
        rw [terminalWrite, if_neg (by decide)]
        dsimp only
        rw [Int.toNat_natCast, forLoop_eq_foldl, List.foldl_map]
        simp only [Nat.zero_add]
      unfold User.ece391Write Ends
      dsimp only
      rw [wrote]
      refine ⟨_, _, rfl, rfl, met.represented, met.own, ?_, fun quiet => ?_⟩
      · rw [if_pos rfl, Int.toNat_natCast, ← List.append_assoc]
        exact congrArg (· ++ _) met.printed
      · obtain ⟨_, _, own⟩ := met.own
        rw [List.foldl_append, ← met.shown quiet, own]

theorem Ran.ece391Close (ran : Ran setting start channels text process) (fd : Int) :
    Ends (ece391Close setting fd) process fun closed next =>
      closed = (channels.close fd).1 ∧ Ran setting start (channels.close fd).2 text next := by
  have met := ran.meet
  obtain ⟨closed, finished⟩ := met.represented.sysClose_returns fd
  obtain ⟨result, represented⟩ := met.represented.sysClose finished
  refine ⟨closed.1, { setting.meet process with state := { (setting.meet process).state with
    pcb := { (setting.meet process).state.pcb with fileArray := closed.2 } } }, ?_, result,
    represented, met.own.trans ⟨_, _, rfl⟩, met.printed, met.shown⟩
  unfold User.ece391Close
  dsimp only
  rw [finished]

/-- A write to a clock changes its rate or nothing. -/
theorem Ran.ece391Write_clock (ran : Ran setting start channels text process) {fd nbytes : Int}
    {index : Fin 8} {rate : Word} (descriptor : fdIndex fd = some index)
    (seen : channels index = some (.clock rate)) (buf : Buffer) :
    Ends (User.ece391Write setting fd buf nbytes) process fun written next =>
      written = (channels.write fd (some buf) nbytes).1 ∧
        Ran setting start (channels.write fd (some buf) nbytes).2 text next := by
  have met := ran.meet
  have other : fd ≠ 1 := by
    rintro rfl
    have standard : channels 1 = some .terminal := (ran.represented.low 1).2 (by decide)
    obtain rfl : index = 1 := by
      rw [fdIndex_eq_some] at descriptor
      omega
    rw [standard] at seen
    cases seen
  have stands := met.represented.entry index
  rw [seen] at stands
  generalize same : (setting.meet process).state.pcb.fileArray index = entry at stands
  cases stands with
  | clock inode rate running =>
      have wrote : sysWrite fd (some buf) nbytes (setting.meet process).state =
          .ok ((rtcWrite index (some buf) nbytes (setting.meet process).state.pcb.fileArray).1,
            { (setting.meet process).state with pcb := { (setting.meet process).state.pcb with
              fileArray := (rtcWrite index (some buf) nbytes
                (setting.meet process).state.pcb.fileArray).2 } }) := by
        unfold sysWrite
        rw [descriptor]
        dsimp only
        rw [same, if_neg (by simp)]
      obtain ⟨result, represented⟩ := met.represented.sysWrite wrote
      unfold User.ece391Write Ends
      dsimp only
      rw [wrote]
      dsimp only
      rw [if_neg other, List.append_nil]
      exact ⟨_, _, rfl, result, represented, met.own.trans ⟨_, _, rfl⟩, met.printed, met.shown⟩

theorem Ran.fdputs (ran : Ran setting start channels text process) (s : String) :
    Ends (fdputs setting 1 s) process fun _ next =>
      Ran setting start channels (text ++ ascii s) next := by
  refine (ran.ece391Write (fun place => (ascii s).getD place 0) (ascii s).length).bind ?_
  rintro written next ⟨rfl, wrote⟩
  rw [range_map_getD (ascii s) (fun _ => 0) (Nat.le_refl _), List.take_length] at wrote
  exact ends_pure wrote

end

/-- What `cat` prints and returns when a channel has nothing more to deliver. -/
def catEnd (fs : FileSystem) (channel : Channel) : Int × List UInt8 :=
  if channel.failsAtEnd fs then (3, ascii "file read failed\n") else (0, [])

section
variable {setting : Setting} {start process : Process} {channels : Channels} {text : List UInt8}
variable {channel : Channel} {fd : Int} {index : Fin 8}

theorem fd_ne_zero (descriptor : fdIndex fd = some index) (large : 2 ≤ index) : fd ≠ 0 := by
  rw [fdIndex_eq_some] at descriptor
  omega

/-- A round of `cat` prints what it has read, or it ends. -/
theorem catRound_ends (ran : Ran setting start channels text process)
    (listed : ListedImage setting.fs) (descriptor : fdIndex fd = some index) (large : 2 ≤ index)
    (seen : channels index = some channel) (inside : channel.Inside setting.fs) (buf : Buffer) :
    Ends (catRound setting fd buf) process fun outcome next =>
      match outcome with
      | .inl value => value = (catEnd setting.fs channel).1 ∧ channel.rest setting.fs = [] ∧
          ∃ after, Ran setting start after (text ++ (catEnd setting.fs channel).2) next
      | .inr _ => ∃ later after bytes, bytes ≠ [] ∧ after index = some later ∧
          later.Inside setting.fs ∧ catEnd setting.fs later = catEnd setting.fs channel ∧
            channel.rest setting.fs = bytes ++ later.rest setting.fs ∧
              Ran setting start after (text ++ bytes) next := by
  refine (ran.ece391Read (fd_ne_zero descriptor large) buf).bind ?_
  rintro ⟨cnt, filled⟩ next ⟨reply, read⟩
  have taken := @taken_read setting.fs channels channel fd index listed descriptor seen inside
    (BitVec.ofInt 32 1024).toNat (by decide)
  generalize channels.read setting.fs fd (BitVec.ofInt 32 1024).toNat = outcome at taken reply read
  cases taken with
  | more some split within same =>
      rename_i later bytes
      rw [Reply.mk.injEq] at reply
      obtain ⟨rfl, filled⟩ := reply
      rw [Int.toNat_natCast] at filled
      have size := List.length_pos_iff.2 some
      dsimp only
      rw [if_neg (by omega), if_neg (by omega)]
      refine (read.ece391Write _ bytes.length).bind ?_
      rintro written final ⟨rfl, wrote⟩
      rw [if_neg (by omega)]
      rw [filled] at wrote
      exact ends_pure ⟨later, _, bytes, some, Function.update_self .., within,
        by rw [catEnd, catEnd, same], split, wrote⟩
  | done empty works =>
      rw [Reply.mk.injEq] at reply
      obtain ⟨rfl, _⟩ := reply
      have finish : catEnd setting.fs channel = (0, []) := by rw [catEnd, works]; rfl
      dsimp only
      rw [if_pos rfl, finish]
      exact ends_pure ⟨rfl, empty, _, by rwa [List.append_nil]⟩
  | failed empty fails =>
      rw [Reply.mk.injEq] at reply
      obtain ⟨rfl, _⟩ := reply
      have finish : catEnd setting.fs channel = (3, ascii "file read failed\n") :=
        if_pos fails
      dsimp only
      rw [if_neg (by decide), if_pos rfl, finish]
      refine (read.fdputs _).bind ?_
      intro _ final put
      exact ends_pure ⟨rfl, empty, _, put⟩

/-- The loop of `cat` prints all that the channel has to deliver. -/
theorem catLoop_ends (ran : Ran setting start channels text process)
    (listed : ListedImage setting.fs) (descriptor : fdIndex fd = some index) (large : 2 ≤ index)
    (seen : channels index = some channel) (inside : channel.Inside setting.fs) (buf : Buffer)
    {fuel : Nat} (enough : (channel.rest setting.fs).length < fuel) :
    Ends (loop .endless (catRound setting fd) fuel buf) process fun value next =>
      value = (catEnd setting.fs channel).1 ∧ ∃ after, Ran setting start after
        (text ++ channel.rest setting.fs ++ (catEnd setting.fs channel).2) next := by
  let total := text ++ channel.rest setting.fs
  refine ends_loop
    (fun (_ : Buffer) (state : Process) => ∃ here current done, Ran setting start here done state ∧
      here index = some current ∧ current.Inside setting.fs ∧
        done ++ current.rest setting.fs = total ∧
          catEnd setting.fs current = catEnd setting.fs channel)
    (fun _ state => start.printed.length + total.length - state.printed.length) ?_
    ⟨channels, channel, text, ran, seen, inside, rfl, rfl⟩ ?_
  · rintro carried state ⟨here, current, done, ran, seen, inside, whole, finish⟩
    refine (catRound_ends ran listed descriptor large seen inside carried).mono ?_
    rintro (value | next) last
    · rintro ⟨rfl, empty, after, final⟩
      rw [empty, List.append_nil] at whole
      rw [finish, whole] at final
      exact ⟨congrArg Prod.fst finish, after, final⟩
    · rintro ⟨later, after, bytes, some, kept, within, same, split, final⟩
      rw [split, ← List.append_assoc] at whole
      refine ⟨⟨after, later, done ++ bytes, final, kept, within, whole, same.trans finish⟩, ?_⟩
      have size := List.length_pos_iff.2 some
      have length := congrArg List.length whole
      rw [final.printed, ran.printed]
      simp only [List.length_append] at length ⊢
      omega
  · have printed := ran.printed
    rw [printed]
    simp only [total, List.length_append]
    omega

end

/-- An array that holds a string and its terminator. -/
def Holds (buf : Buffer) (argument : List UInt8) : Prop :=
  ∀ place ≤ argument.length, buf place = argument.getD place 0

theorem Holds.loadString {buf : Buffer} {argument : List UInt8} (holds : Holds buf argument)
    (noTerminator : 0 ∉ argument) {size : Nat} (room : argument.length < size) (process : Process) :
    Ends (loadString size buf) process fun name next => name.bytes = argument ∧ next = process := by
  have split : (List.range size).map buf = argument ++
      0 :: (List.range' (argument.length + 1) (size - (argument.length + 1))).map buf := by
    have parts : List.range size = List.range (argument.length + 1) ++
        List.range' (argument.length + 1) (size - (argument.length + 1)) := by
      rw [List.range_eq_range', List.range_eq_range']
      have joined := @List.range'_append_1 0 (argument.length + 1) (size - (argument.length + 1))
      rw [Nat.zero_add, Nat.add_sub_cancel' room] at joined
      exact joined.symm
    have front : (List.range argument.length).map buf = argument := by
      apply List.ext_getElem
      · rw [List.length_map, List.length_range]
      · intro place _ inside
        rw [List.getElem_map, List.getElem_range, holds place (Nat.le_of_lt inside),
          List.getD_eq_getElem _ _ inside]
    have last : buf argument.length = 0 := by
      rw [holds _ (Nat.le_refl _), List.getD_eq_default _ _ (Nat.le_refl _)]
    rw [parts, List.map_append, List.range_succ, List.map_append, front, List.map_singleton, last,
      List.append_assoc, List.singleton_append]
  unfold User.loadString
  rw [if_pos (by rw [split]; simp)]
  refine ends_pure ⟨?_, rfl⟩
  change List.takeWhile (· != 0) _ = _
  rw [split, List.takeWhile_append_of_pos, List.takeWhile_cons_of_neg (by simp), List.append_nil]
  intro byte member
  rw [bne_iff_ne]
  rintro rfl
  exact noTerminator member

section
variable {setting : Setting} {start process : Process} {channels : Channels} {text : List UInt8}
variable {argument : List UInt8}

/-- The array receives the argument of the process. -/
theorem Ran.ece391Getargs (ran : Ran setting start channels text process)
    (stores : StoresArgument start.state.pcb argument) (buf : Buffer) {nbytes : Int}
    (room : argument.length < nbytes) :
    Ends (ece391Getargs setting buf nbytes) process fun outcome next =>
      (outcome.1 ≠ 0 ↔ argument = []) ∧ (argument ≠ [] → Holds outcome.2 argument) ∧
        Ran setting start channels text next := by
  have met := ran.meet
  obtain ⟨_, _, own⟩ := met.own
  have size : (setting.meet process).state.pcb.numCharInArg = argument.length + 1 := by
    rw [own]
    exact stores.size
  unfold User.ece391Getargs Ends
  dsimp only
  by_cases empty : argument = []
  · rw [if_pos (.inl (by rw [size, empty]; rfl))]
    exact ⟨_, _, rfl, by simp [empty], fun present => absurd empty present, met⟩
  · have positive := List.length_pos_iff.2 empty
    rw [if_neg (by omega)]
    refine ⟨_, _, rfl, by simp [empty], fun _ place within => ?_, met⟩
    dsimp only
    refine (forLoop_update (setting.meet process).state.pcb.arg (fun _ _ _ _ => rfl) place).trans ?_
    rw [if_pos (by omega), own]
    exact stores.bytes place within

end

/-- What `cat` returns and prints for an argument: the file, the names in the directory, or
nothing for a clock. -/
def catOutput (fs : FileSystem) (argument : List UInt8) : Int × List UInt8 :=
  if argument = [] then (3, ascii "could not read arguments\n")
  else
    match fs.entryOf argument with
    | none => (2, ascii "file not found\n")
    | some index =>
        if (fs.direntries index).filetype = 0 then (0, [])
        else if (fs.direntries index).filetype = 1 then
          let names := (List.range fs.dirCount).flatMap fun index => (fs.direntries index).fullName
          if fs.dirCount < numFiles then (0, names) else (3, names ++ ascii "file read failed\n")
        else (0, entryData fs index)

theorem catEnd_channel (fs : FileSystem) (index : Nat) :
    let channel := fs.channel index
    ((catEnd fs channel).1, channel.rest fs ++ (catEnd fs channel).2) =
      if (fs.direntries index).filetype = 0 then (0, [])
      else if (fs.direntries index).filetype = 1 then
        let names := (List.range fs.dirCount).flatMap fun index => (fs.direntries index).fullName
        if fs.dirCount < numFiles then (0, names) else (3, names ++ ascii "file read failed\n")
      else (0, entryData fs index) := by
  have names : Channel.rest fs (.listing 0) =
      (List.range fs.dirCount).flatMap fun index => (fs.direntries index).fullName := by
    rw [Channel.rest, Nat.sub_zero, List.range_eq_range']
  dsimp only
  unfold FileSystem.channel catEnd
  by_cases device : (fs.direntries index).filetype = 0
  · rw [if_pos device, if_pos device]
    rfl
  by_cases directory : (fs.direntries index).filetype = 1
  · rw [if_neg device, if_pos directory, if_neg device, if_pos directory, names]
    by_cases room : fs.dirCount < numFiles
    · rw [if_pos room, if_neg (by rw [Channel.failsAtEnd, decide_eq_true_eq]; omega),
        List.append_nil]
    · rw [if_neg room, if_pos (by rw [Channel.failsAtEnd, decide_eq_true_eq]; omega)]
  · rw [if_neg device, if_neg directory, if_neg device, if_neg directory]
    exact congrArg (Prod.mk 0) (List.append_nil _)

/-- No channel of an image has more bytes than the greatest file. -/
theorem rest_channel_length {fs : FileSystem} (valid : ValidImage fs) {index : Nat}
    (inside : index < fs.dirCount) :
    ((fs.channel index).rest fs).length ≤ 1023 * 4096 := by
  unfold FileSystem.channel
  split_ifs with device directory
  · exact Nat.zero_le _
  · have count := valid.count
    have short : ∀ place ∈ List.range' 0 (fs.dirCount - 0),
        (fs.direntries place).fullName.length ≤ 32 :=
      fun place _ => (fs.direntries place).fullName_length_le
    have total := List.sum_le_card_nsmul
      ((List.range' 0 (fs.dirCount - 0)).map fun place => (fs.direntries place).fullName.length) 32
      (by simpa using short)
    rw [Channel.rest, List.length_flatMap]
    rw [List.length_map, List.length_range', smul_eq_mul] at total
    dsimp only [numFiles] at count
    omega
  · have known := valid.known index inside
    have sound := valid.sound index inside (by omega)
    rw [Channel.rest]
    refine (List.drop_sublist _ _).length_le.trans ?_
    change (entryData fs index).length ≤ _
    rw [entryData, fileData_length]
    exact sound.short

/-- A fresh process opens an entry below the standard descriptors. -/
theorem openName_fresh {fs : FileSystem} {name : CString} {index : Nat}
    (found : fs.entryOf name.bytes = some index) :
    ∃ descriptor : Fin 8, 2 ≤ descriptor ∧
      (Channels.fresh.openName fs (some name)).1 = (descriptor.val : Int) ∧
        (Channels.fresh.openName fs (some name)).2 descriptor = some (fs.channel index) := by
  unfold Channels.openName
  dsimp only [Option.bind]
  rw [found]
  exact connect_fresh (fs.channel index) (fs.channel_ne index)

theorem channel_inside (fs : FileSystem) (index : Nat) : (fs.channel index).Inside fs := by
  unfold FileSystem.channel
  split_ifs
  · trivial
  · exact Nat.zero_le _
  · trivial

/-- The call on a local array does to its bytes what the kernel does to them in the page of the
caller. -/
theorem ece391Getargs_machine (setting : Setting) {process : Process} {machine : Machine}
    (same : process.state.pcb = machine.currentPcb) {buf : Buffer} {address : Nat} {nbytes : Int}
    (low : mb128 ≤ address)
    (high : address + machine.currentPcb.numCharInArg ≤ mb128 + mb4)
    (array : ∀ place, buf place = machine.userByte (address + place)) :
    ∃ status stored next after,
      ece391Getargs setting buf nbytes process = .ok ((status, stored), next) ∧
        getargs address nbytes machine = .ok ⟨after, .returned status⟩ ∧
          ∀ place, stored place = after.userByte (address + place) := by
  have met : (setting.meet process).state.pcb = machine.currentPcb := same
  have inPage : ¬(address = 0 ∨ address > mb128 + mb4 ∨ address < mb128) := by
    simp only [mb128, mb4] at low high ⊢
    omega
  unfold ece391Getargs getargs
  rw [if_neg inPage]
  dsimp only
  rw [met]
  by_cases none : machine.currentPcb.numCharInArg = 1
  · rw [if_pos (.inl none), if_pos none]
    exact ⟨_, _, _, _, rfl, rfl, array⟩
  by_cases small : nbytes < machine.currentPcb.numCharInArg
  · rw [if_pos (.inr small), if_neg none, if_pos small]
    exact ⟨_, _, _, _, rfl, rfl, array⟩
  · rw [if_neg (not_or.2 ⟨none, small⟩), if_neg none, if_neg small, if_neg (by omega)]
    have copied (arg page : Nat → UInt8) (count : Nat)
        (before : ∀ place, buf place = page (address - mb128 + place)) (place : Nat) :
        forLoop (fun position current => Function.update current position (arg position))
            0 count buf place =
          forLoop (fun position page => Function.update page (address - mb128 + position)
            (arg position)) 0 count page (address - mb128 + place) := by
      revert place
      refine forLoop_relates (fun (left : Buffer) (right : Nat → UInt8) =>
        ∀ place, left place = right (address - mb128 + place)) before ?_
      intro done left right _ related place
      rw [Function.update_apply, Function.update_apply, related place]
      simp only [Nat.add_left_cancel_iff]
    have offset (place : Nat) : address + place - mb128 = address - mb128 + place := by omega
    refine ⟨_, _, _, _, rfl, rfl, fun place => ?_⟩
    change _ = Function.update machine.frames machine.programFrame _ machine.programFrame _
    rw [Function.update_self, offset]
    refine copied _ _ _ (fun place => ?_) place
    rw [array place, Machine.userByte, offset]

/-- In a fresh process with an argument, `cat` prints the file with that name. -/
theorem cat_prints {setting : Setting} (valid : ValidImage setting.fs) {process : Process}
    (table : process.state.pcb.fileArray = initFileArray blank) {argument : List UInt8}
    (stores : StoresArgument process.state.pcb argument) (noTerminator : 0 ∉ argument)
    (short : argument.length < terminalBufferSize) (buf : Buffer) {fuel : Nat}
    (enough : 1023 * 4096 < fuel) :
    let output := catOutput setting.fs argument
    ∃ final, cat setting fuel buf process = .ok (output.1, final) ∧
      final.printed = process.printed ++ output.2 ∧
      ((∀ count console, setting.before count console = console) →
        final.state.console = output.2.foldl (fun console byte =>
          terminalPutc byte attrib process.state.pcb.terminalIndex console)
            process.state.console) := by
  intro output
  have ends : Ends (cat setting fuel buf) process fun value next =>
      value = output.1 ∧ ∃ channels, Ran setting process channels output.2 next := by
    have ran : Ran setting process Channels.fresh [] process := ran_start table
    refine (ran.ece391Getargs stores buf (by dsimp only [terminalBufferSize] at short; omega)).bind
      ?_
    rintro ⟨status, filled⟩ next ⟨failed, held, ran⟩
    dsimp only at failed held ⊢
    by_cases empty : argument = []
    · have message : output = (3, ascii "could not read arguments\n") := if_pos empty
      rw [if_pos (failed.2 empty), message]
      exact (ran.fdputs _).bind fun _ last put => ends_pure ⟨rfl, _, put⟩
    rw [if_neg fun wrong => empty (failed.1 wrong)]
    refine ((held empty).loadString noTerminator
      (by dsimp only [terminalBufferSize] at short; omega) next).bind ?_
    rintro name _ ⟨bytes, rfl⟩
    refine (ran.ece391Open valid name).bind ?_
    rintro fd last ⟨rfl, opened⟩
    cases found : setting.fs.entryOf argument with
    | none =>
        have message : output = (2, ascii "file not found\n") := by
          change catOutput setting.fs argument = _
          rw [catOutput, if_neg empty, found]
        have missing : (Channels.fresh.openName setting.fs (some name)).1 = -1 := by
          unfold Channels.openName
          dsimp only [Option.bind]
          rw [bytes, found]
        rw [if_pos missing, message]
        exact (opened.fdputs _).bind fun _ final put => ends_pure ⟨rfl, _, put⟩
    | some index =>
        have names := (FileSystem.entryOf_eq_some valid.toListedImage).1 (bytes.symm ▸ found)
        obtain ⟨descriptor, large, fresh, seen⟩ := openName_fresh (bytes.symm ▸ found)
        have whole := catEnd_channel setting.fs index
        rw [fresh, if_neg (by omega)]
        refine (catLoop_ends opened valid.toListedImage ((fdIndex_eq_some _ _).2 rfl) large seen
          (channel_inside setting.fs index) filled
          ((rest_channel_length valid names.1).trans_lt enough)).mono ?_
        rintro value final ⟨rfl, channels, printed⟩
        have told : output = ((catEnd setting.fs (setting.fs.channel index)).1,
            (setting.fs.channel index).rest setting.fs ++
              (catEnd setting.fs (setting.fs.channel index)).2) := by
          change catOutput setting.fs argument = _
          rw [catOutput, if_neg empty, found]
          exact whole.symm
        rw [told]
        exact ⟨rfl, channels, by rwa [List.nil_append] at printed⟩
  obtain ⟨value, final, finished, rfl, channels, ran⟩ := ends
  exact ⟨final, finished, ran.printed, ran.shown⟩

/-- A process that was started with the name of the program as its argument. -/
def namedProcess : Process where
  state := freshProcess { zeroPcb with
    arg := fun place => shellName.bytes.getD place 0
    numCharInArg := shellName.bytes.length + 1 } coldMachine.console
  calls := 0
  printed := []

/-- Nothing else uses the console. -/
def quiet (fs : FileSystem) : Setting :=
  ⟨fs, fun _ console => console, fun _ console => console, fun _ console => console⟩

theorem cat_prints_shell : ∃ final,
    cat (quiet countedImage) 5000000 (fun _ => 0) namedProcess = .ok (0, final) ∧
      final.printed = [0x7F, 0x45, 0x4C, 0x46] := by
  have output : catOutput countedImage shellName.bytes = (0, [0x7F, 0x45, 0x4C, 0x46]) := by
    decide +kernel
  obtain ⟨final, finished, printed, _⟩ := @cat_prints (quiet countedImage) countedImage_valid
    namedProcess rfl shellName.bytes ⟨rfl, fun _ _ => rfl⟩ shellName.noTerminator (by decide)
    (fun _ => 0) 5000000 (by decide)
  dsimp only [quiet] at finished printed
  rw [output] at finished printed
  exact ⟨final, finished, printed⟩

/-- The lines that `ls` still has to print from a position on. -/
def lsLines (fs : FileSystem) (position : Nat) : List UInt8 :=
  (List.range' position (fs.dirCount - position)).flatMap fun index =>
    (fs.direntries index).fullName ++ [newline]

/-- What `ls` returns and prints at the end: a directory that is full has no free entry to stop
at. -/
def lsEnd (fs : FileSystem) : Int × List UInt8 :=
  if fs.dirCount < numFiles then (0, []) else (3, ascii "directory entry read failed\n")

section
variable {setting : Setting} {start process : Process} {channels : Channels} {text : List UInt8}
variable {fd : Int} {index : Fin 8} {position : Nat}

theorem lsLines_succ {fs : FileSystem} (inside : position < fs.dirCount) :
    lsLines fs position =
      (fs.direntries position).fullName ++ [newline] ++ lsLines fs (position + 1) := by
  have size : fs.dirCount - position = (fs.dirCount - (position + 1)) + 1 := by omega
  rw [lsLines, lsLines, size, List.range'_succ, List.flatMap_cons]

theorem range_map_update (buf : Buffer) (count : Nat) (byte : UInt8) :
    (List.range (count + 1)).map (Function.update buf count byte) =
      (List.range count).map buf ++ [byte] := by
  rw [List.range_succ, List.map_append, List.map_singleton, Function.update_self]
  congr 1
  refine List.map_congr_left fun place member => Function.update_of_ne ?_ _ _
  exact Nat.ne_of_lt (List.mem_range.1 member)

theorem store_ends {size : Nat} (buf : Buffer) {place : Nat} (inside : place < size)
    (byte : UInt8) :
    Ends (store size buf place byte) process fun stored next =>
      stored = Function.update buf place byte ∧ next = process := by
  unfold store
  rw [if_pos (by omega), Int.toNat_natCast]
  exact ends_pure ⟨rfl, rfl⟩

/-- A round of `ls` prints the name of the next entry on a line, or it ends. -/
theorem lsRound_ends (ran : Ran setting start channels text process)
    (listed : ListedImage setting.fs) (descriptor : fdIndex fd = some index) (large : 2 ≤ index)
    (seen : channels index = some (.listing position)) (inside : position ≤ setting.fs.dirCount)
    (buf : Buffer) :
    Ends (lsRound setting fd buf) process fun outcome next =>
      match outcome with
      | .inl value => value = (lsEnd setting.fs).1 ∧ position = setting.fs.dirCount ∧
          ∃ after, Ran setting start after (text ++ (lsEnd setting.fs).2) next
      | .inr _ => position < setting.fs.dirCount ∧ ∃ after,
          after index = some (.listing (position + 1)) ∧ Ran setting start after
            (text ++ ((setting.fs.direntries position).fullName ++ [newline])) next := by
  have count := listed.count
  refine (ran.ece391Read (fd_ne_zero descriptor large) buf).bind ?_
  rintro ⟨cnt, filled⟩ next ⟨reply, read⟩
  unfold Channels.read at reply read
  rw [descriptor] at reply read
  dsimp only at reply read
  rw [seen] at reply read
  dsimp only at reply read ⊢
  rcases Nat.lt_or_eq_of_le inside with within | rfl
  · rw [if_pos (within.trans_le count)] at reply read
    obtain ⟨rfl, filled⟩ := (Reply.mk.injEq ..).mp reply
    rw [Int.toNat_natCast] at filled
    have named := List.length_pos_iff.2 (listed.named position within)
    have short := (setting.fs.direntries position).fullName_length_le
    rw [if_neg (by omega), if_neg (by omega)]
    refine (store_ends _ (show _ < sBufSize from Nat.lt_succ_of_le short) newline).bind ?_
    rintro stored _ ⟨rfl, rfl⟩
    refine (read.ece391Write _ ((setting.fs.direntries position).fullName.length + 1)).bind ?_
    rintro written final ⟨rfl, wrote⟩
    rw [range_map_update, filled] at wrote
    rw [if_neg (by omega)]
    exact ends_pure ⟨within, _, Function.update_self .., wrote⟩
  · by_cases room : setting.fs.dirCount < numFiles
    · rw [if_pos room, listed.unnamed (Nat.le_refl _) room] at reply read
      obtain ⟨rfl, _⟩ := (Reply.mk.injEq ..).mp reply
      have finish : lsEnd setting.fs = (0, []) := if_pos room
      rw [if_pos (show ((([] : List UInt8).length : Nat) : Int) = 0 from rfl), finish]
      exact ends_pure ⟨rfl, rfl, _, by rwa [List.append_nil]⟩
    · rw [if_neg room] at reply read
      obtain ⟨rfl, _⟩ := (Reply.mk.injEq ..).mp reply
      have finish : lsEnd setting.fs = (3, ascii "directory entry read failed\n") := if_neg room
      rw [if_neg (by decide), if_pos rfl, finish]
      exact (read.fdputs _).bind fun _ final put => ends_pure ⟨rfl, rfl, _, put⟩

theorem lsLoop_ends (ran : Ran setting start channels text process)
    (listed : ListedImage setting.fs) (descriptor : fdIndex fd = some index) (large : 2 ≤ index)
    (seen : channels index = some (.listing 0)) (buf : Buffer) {fuel : Nat}
    (enough : (lsLines setting.fs 0).length < fuel) :
    Ends (loop .endless (lsRound setting fd) fuel buf) process fun value next =>
      value = (lsEnd setting.fs).1 ∧ ∃ after, Ran setting start after
        (text ++ lsLines setting.fs 0 ++ (lsEnd setting.fs).2) next := by
  let total := text ++ lsLines setting.fs 0
  refine ends_loop
    (fun (_ : Buffer) (state : Process) => ∃ here position done, Ran setting start here done state ∧
      here index = some (.listing position) ∧ position ≤ setting.fs.dirCount ∧
        done ++ lsLines setting.fs position = total)
    (fun _ state => start.printed.length + total.length - state.printed.length) ?_
    ⟨channels, 0, text, ran, seen, Nat.zero_le _, rfl⟩ ?_
  · rintro carried state ⟨here, position, done, ran, seen, inside, whole⟩
    refine (lsRound_ends ran listed descriptor large seen inside carried).mono ?_
    rintro (value | next) last
    · rintro ⟨rfl, rfl, after, final⟩
      have empty : lsLines setting.fs setting.fs.dirCount = [] := by
        rw [lsLines, Nat.sub_self]
        rfl
      rw [empty, List.append_nil] at whole
      rw [whole] at final
      exact ⟨rfl, after, final⟩
    · rintro ⟨within, after, kept, final⟩
      rw [lsLines_succ within, ← List.append_assoc] at whole
      refine ⟨⟨after, position + 1, _, final, kept, within, whole⟩, ?_⟩
      have length := congrArg List.length whole
      rw [final.printed, ran.printed]
      simp only [List.length_append, List.length_singleton] at length ⊢
      omega
  · rw [ran.printed]
    simp only [total, List.length_append]
    omega

end

/-- What `ls` returns and prints. -/
def lsOutput (fs : FileSystem) : Int × List UInt8 :=
  ((lsEnd fs).1, lsLines fs 0 ++ (lsEnd fs).2)

theorem lsLines_length {fs : FileSystem} (listed : ListedImage fs) :
    (lsLines fs 0).length ≤ 33 * numFiles := by
  have count := listed.count
  have short : ∀ place ∈ List.range' 0 (fs.dirCount - 0),
      ((fs.direntries place).fullName ++ [newline]).length ≤ 33 := by
    intro place _
    have name := (fs.direntries place).fullName_length_le
    rw [List.length_append, List.length_singleton]
    omega
  have total := List.sum_le_card_nsmul ((List.range' 0 (fs.dirCount - 0)).map fun place =>
    ((fs.direntries place).fullName ++ [newline]).length) 33 (by simpa using short)
  rw [lsLines, List.length_flatMap]
  rw [List.length_map, List.length_range', smul_eq_mul] at total
  omega

/-- In a fresh process `ls` prints the name of each entry on a line. -/
theorem ls_lists {setting : Setting} (valid : ValidImage setting.fs) {index : Nat}
    (names : Names setting.fs dot index) (directory : (setting.fs.direntries index).filetype = 1)
    {process : Process} (table : process.state.pcb.fileArray = initFileArray blank)
    (buf : Buffer) {fuel : Nat} (enough : 33 * numFiles < fuel) :
    let output := lsOutput setting.fs
    ∃ final, ls setting fuel buf process = .ok (output.1, final) ∧
      final.printed = process.printed ++ output.2 ∧
      ((∀ count console, setting.before count console = console) →
        final.state.console = output.2.foldl (fun console byte =>
          terminalPutc byte attrib process.state.pcb.terminalIndex console)
            process.state.console) := by
  intro output
  have listed := valid.toListedImage
  have ran : Ran setting process Channels.fresh [] process := ran_start table
  have ends : Ends (ls setting fuel buf) process fun value next =>
      value = output.1 ∧ ∃ channels, Ran setting process channels output.2 next := by
    refine (ran.ece391Open valid dot).bind ?_
    rintro fd last ⟨rfl, opened⟩
    obtain ⟨descriptor, large, fresh, seen⟩ :=
      openName_fresh ((FileSystem.entryOf_eq_some listed).2 names)
    have channel : setting.fs.channel index = .listing 0 := by
      rw [FileSystem.channel, directory]
      rfl
    rw [channel] at seen
    rw [fresh, if_neg (by omega)]
    exact lsLoop_ends opened listed ((fdIndex_eq_some _ _).2 rfl) large seen buf
      ((lsLines_length listed).trans_lt enough)
  obtain ⟨value, final, finished, rfl, channels, ran⟩ := ends
  exact ⟨final, finished, ran.printed, ran.shown⟩

/-- An image with the directory as its only entry. -/
def dotImage : FileSystem where
  memory address := if address = 0 ∨ address = 96 then 1 else if address = 64 then 46 else 0
  fsPtr := 0

theorem dotImage_valid : ValidImage dotImage where
  count := by decide +kernel
  named := by decide +kernel
  distinct := by decide +kernel
  known := by decide +kernel
  zero := by
    intro index listed inside position bound
    have first : dotImage.dirCount = 1 := by decide +kernel
    dsimp only [numFiles] at inside
    have wrapped : (0 + (64 + 64 * index + position)) % 2 ^ 32 = 64 + 64 * index + position := by
      omega
    change (if (0 + (64 + 64 * index + position)) % 2 ^ 32 = 0 ∨
      (0 + (64 + 64 * index + position)) % 2 ^ 32 = 96 then (1 : UInt8) else
        if (0 + (64 + 64 * index + position)) % 2 ^ 32 = 64 then 46 else 0) = 0
    rw [wrapped, if_neg (by omega), if_neg (by omega)]
  sound := by
    intro index listed regular
    have first : dotImage.dirCount = 1 := by decide +kernel
    obtain rfl : index = 0 := by omega
    exact absurd regular (by decide +kernel)

theorem ls_lists_dot : ∃ final,
    ls (quiet dotImage) 5000 (fun _ => 0) namedProcess = .ok (0, final) ∧
      final.printed = [46, newline] := by
  have output : lsOutput dotImage = (0, [46, newline]) := by decide +kernel
  obtain ⟨final, finished, printed, _⟩ := @ls_lists (quiet dotImage) dotImage_valid 0
    ⟨by decide +kernel, by decide +kernel⟩ (by decide +kernel) namedProcess rfl (fun _ => 0) 5000
    (by decide)
  dsimp only [quiet] at finished printed
  rw [output] at finished printed
  exact ⟨final, finished, printed⟩

end ComputerSystems.User
