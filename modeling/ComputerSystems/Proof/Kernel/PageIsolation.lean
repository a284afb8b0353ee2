import ComputerSystems.Proof.Kernel.VideoMapping

namespace ComputerSystems.Kernel
open ComputerSystems.Library

/-- The frame of a page table entry that user code may access. -/
def tableFrame (entry : Nat) : Option Nat :=
  if entry &&& 5 = 5 then some (entry &&& 0xFFFFF000) else none

/-- The frame behind one page of a directory entry. Without present and user bits in the entry
user code has no access. -/
def Machine.entryFrame (machine : Machine) (entry : PageDirEntry) (index : Nat) : Option Nat :=
  if entry.attributes &&& 5 ≠ 5 then none
  else
    match entry.base with
    | .frame address => some (address + index * kb4)
    | .firstPageTable => tableFrame (machine.firstPageTable index)
    | .videoMemPageTable slot => tableFrame (machine.videoMemPageTable slot index)

/-- The physical address of a virtual 4KB page as user code with the directory of a slot sees
it. -/
def Machine.userFrame (machine : Machine) (slot page : Nat) : Option Nat :=
  machine.entryFrame (machine.pageDirectoryArray slot (page / numEntries)) (page % numEntries)

/-- The user pages of an active process are its program page and the one video page, which needs
an earlier `vidmap` of the process. -/
structure Isolated (system : System) : Prop where
  own : ∀ slot, system.machine.active slot = true → ∀ page, page / numEntries = 32 →
    system.machine.userFrame slot page =
      some (0x800000 + slot * mb4 + page % numEntries * kb4)
  other : ∀ slot, system.machine.active slot = true → ∀ page < numEntries * numEntries,
    page / numEntries ≠ 32 → system.machine.userFrame slot page ≠ none →
      page = 64 * numEntries ∧ mapped (slot + 1) system.log = true
  separate : ∀ first second, first ≠ second → system.machine.active first = true →
    system.machine.active second = true → ∀ page also, page / numEntries = 32 →
      also < numEntries * numEntries →
        system.machine.userFrame first page ≠ system.machine.userFrame second also

/-- The runs of C code may also set the paging up again. -/
inductive PagedEvent where
  | initPaging
  | event (event : Event)

def pagedStep (fs : FileSystem) (system : System) : PagedEvent → Except Stop System
  | .initPaging => .ok { system with machine := initPaging system.machine }
  | .event event => step fs system event

/-- Whether the event creates a process: an `execute` whose program loads into a free slot, or a
switch to another terminal without a process. -/
def creates (fs : FileSystem) (machine : Machine) : Event → Bool
  | .execute (some command) stack =>
      match machine.freeSlot with
      | none => false
      | some slot =>
          match loadCommand fs command stack slot machine with
          | .error _ => false
          | .ok (status, _) => status != -1
  | .switchTerminal next => decide (∃ terminal : Fin 3, terminal.val = next ∧
      terminal ≠ machine.console.activeTerminalIndex ∧
        (machine.console.terminals terminal).activeProcess = -1)
  | _ => false

/-- Every new process gets a slot whose directory has no video page table. -/
def CleanCreation (fs : FileSystem) (system : System) : PagedEvent → Prop
  | .initPaging => True
  | .event event => creates fs system.machine event = true →
      (system.machine.freeSlot.all fun slot =>
        (system.machine.pageDirectoryArray slot 64).attributes &&& 1 == 0) = true

instance decidableCleanCreation (fs : FileSystem) (system : System) :
    (event : PagedEvent) → Decidable (CleanCreation fs system event)
  | .initPaging => .isTrue trivial
  | .event event => inferInstanceAs (Decidable (creates fs system.machine event = true →
      (system.machine.freeSlot.all fun slot =>
        (system.machine.pageDirectoryArray slot 64).attributes &&& 1 == 0) = true))

/-- The directory entries that `initPaging` sets. -/
def initialEntry (slot index : Nat) : PageDirEntry :=
  if index = 0 then ⟨.firstPageTable, 3⟩
  else if index = 1 then ⟨.frame 0x400000, 0x083⟩
  else if index = 32 then ⟨.frame (0x800000 + slot * 0x400000), 0x087⟩
  else ⟨.frame 0, 0x002⟩

/-- The values that the first entry of a video page table can have. -/
def videoEntries : List Nat := [0, 0xB8007, 0xB9007, 0xBA007, 0xBB007]

/-- A directory differs from its initial state at most by the video page table of its slot. -/
structure Directories (machine : Machine) : Prop where
  storage : ∀ terminal,
    (machine.console.terminals terminal).storageLocation = storageLocation terminal
  initial : ∀ slot < 6, ∀ index < numEntries, index ≠ 64 →
    machine.pageDirectoryArray slot index = initialEntry slot index
  video : ∀ slot < 6, machine.pageDirectoryArray slot 64 = initialEntry slot 64 ∨
    (machine.pageDirectoryArray slot 64 = ⟨.videoMemPageTable slot, 7⟩ ∧
      ∀ index, 0 < index → index < numEntries →
        machine.videoMemPageTable slot index = index * kb4 ||| 6)
  entries : ∀ slot < 6, machine.videoMemPageTable slot 0 ∈ videoEntries

/-- Only an active process that has called `vidmap` has a video page table. -/
def Owned (machine : Machine) (log : List Action) : Prop :=
  ∀ slot, machine.active slot = true →
    machine.pageDirectoryArray slot 64 ≠ initialEntry slot 64 → mapped (slot + 1) log = true

theorem tableFrame_hidden {index : Nat} (small : index < numEntries) :
    tableFrame (index * kb4 ||| 6) = none := by
  have user : ∀ index < numEntries, (index * kb4 ||| 6) &&& 5 ≠ 5 := by decide +kernel
  exact if_neg (user index small)

theorem tableFrame_low {entry frame : Nat} (listed : entry ∈ videoEntries)
    (found : tableFrame entry = some frame) : frame < 0x800000 := by
  have low : ∀ entry ∈ videoEntries, ∀ frame ∈ tableFrame entry, frame < 0x800000 := by decide
  exact low entry listed frame found

section
variable {machine after : Machine} {log later : List Action} {shells : Stacks (Fin 3) Nat}

theorem entryFrame_hidden {entry : PageDirEntry} (hidden : entry.attributes &&& 5 ≠ 5)
    (index : Nat) : machine.entryFrame entry index = none := if_pos hidden

/-- Only the entry for the program page is open to user code at first. -/
theorem entryFrame_initialEntry (slot index offset : Nat) (other : index ≠ 32) :
    machine.entryFrame (initialEntry slot index) offset = none := by
  apply entryFrame_hidden
  unfold initialEntry
  rw [if_neg other]
  split_ifs <;> decide

theorem entryFrame_program (slot offset : Nat) :
    machine.entryFrame (initialEntry slot 32) offset =
      some (0x800000 + slot * mb4 + offset * kb4) :=
  if_neg (show ¬ (0x087 &&& 5 ≠ 5) by decide)

theorem Directories.userFrame_own (directories : Directories machine) {slot : Nat}
    (small : slot < 6) {page : Nat} (inside : page / numEntries = 32) :
    machine.userFrame slot page = some (0x800000 + slot * mb4 + page % numEntries * kb4) := by
  unfold Machine.userFrame
  rw [inside, directories.initial slot small 32 (by decide) (by decide)]
  exact entryFrame_program slot _

/-- Outside the program page only the page at 256MB can be accessible, and it needs the video
page table. -/
theorem Directories.userFrame_other (directories : Directories machine) {slot : Nat}
    (small : slot < 6) {page frame : Nat} (bound : page < numEntries * numEntries)
    (outside : page / numEntries ≠ 32) (found : machine.userFrame slot page = some frame) :
    page = 64 * numEntries ∧ machine.pageDirectoryArray slot 64 ≠ initialEntry slot 64 ∧
      frame < 0x800000 := by
  have index : page / numEntries < numEntries := Nat.div_lt_of_lt_mul bound
  unfold Machine.userFrame at found
  by_cases video : page / numEntries = 64
  · rw [video] at found
    rcases directories.video slot small with clean | ⟨present, hidden⟩
    · rw [clean, entryFrame_initialEntry slot 64 _ (by decide)] at found
      cases found
    · have opened : machine.entryFrame (machine.pageDirectoryArray slot 64) (page % numEntries) =
          tableFrame (machine.videoMemPageTable slot (page % numEntries)) := by
        rw [present]
        exact if_neg (show ¬ (7 &&& 5 ≠ 5) by decide)
      rw [opened] at found
      have first : page % numEntries = 0 := by
        by_contra later
        rw [hidden _ (Nat.pos_of_ne_zero later) (Nat.mod_lt _ (by decide)),
          tableFrame_hidden (Nat.mod_lt _ (by decide))] at found
        cases found
      rw [first] at found
      have whole := Nat.div_add_mod page numEntries
      rw [video, first] at whole
      refine ⟨by omega, ?_, tableFrame_low (directories.entries slot small) found⟩
      rw [present]
      exact fun same => PageBase.noConfusion (congrArg PageDirEntry.base same)
  · rw [directories.initial slot small _ index video,
      entryFrame_initialEntry _ _ _ outside] at found
    cases found

theorem Directories.isolated {system : System} (directories : Directories system.machine)
    (owned : Owned system.machine system.log) (bounded : ∀ slot, system.machine.active slot = true →
      slot < 6) : Isolated system where
  own slot active page inside := directories.userFrame_own (bounded slot active) inside
  other slot active page bound outside present := by
    obtain ⟨frame, found⟩ := Option.ne_none_iff_exists'.1 present
    obtain ⟨video, table, _⟩ :=
      directories.userFrame_other (bounded slot active) bound outside found
    exact ⟨video, owned slot active table⟩
  separate first second different active other page also inside bound same := by
    rw [directories.userFrame_own (bounded first active) inside] at same
    by_cases program : also / numEntries = 32
    · rw [directories.userFrame_own (bounded second other) program] at same
      have equal := Option.some.inj same
      have left := Nat.mod_lt page (show 0 < numEntries by decide)
      have right := Nat.mod_lt also (show 0 < numEntries by decide)
      simp only [numEntries, mb4, kb4] at equal left right
      omega
    · have low := (directories.userFrame_other (bounded second other) bound program same.symm).2.2
      omega

/-- A step that changes no table and no storage keeps the directories. -/
theorem Directories.keep (directories : Directories machine)
    (storage : ∀ terminal, (after.console.terminals terminal).storageLocation =
      (machine.console.terminals terminal).storageLocation)
    (directory : after.pageDirectoryArray = machine.pageDirectoryArray)
    (table : after.videoMemPageTable = machine.videoMemPageTable) : Directories after where
  storage terminal := (storage terminal).trans (directories.storage terminal)
  initial := by
    rw [directory]
    exact directories.initial
  video := by
    rw [directory, table]
    exact directories.video
  entries := by
    rw [table]
    exact directories.entries

theorem initPaging_clean (machine : Machine) {slot : Nat} (small : slot < 6) :
    (initPaging machine).pageDirectoryArray slot 64 = initialEntry slot 64 := by
  change (if numMaxProcesses ≤ slot then _ else _) = _
  rw [if_neg (by simp only [numMaxProcesses]; omega)]
  rfl

theorem directories_initPaging (machine : Machine) (storage : ∀ terminal,
      (machine.console.terminals terminal).storageLocation = storageLocation terminal)
    (entries : ∀ slot < 6, machine.videoMemPageTable slot 0 ∈ videoEntries) :
    Directories (initPaging machine) where
  storage := storage
  initial slot small index bound _ := by
    change (if numMaxProcesses ≤ slot then _ else _) = _
    rw [if_neg (by simp only [numMaxProcesses]; omega)]
    unfold initialEntry
    split_ifs <;> rfl
  video slot small := .inl (initPaging_clean machine small)
  entries := entries

theorem remapEntry_mem {entry : Nat} (listed : entry ∈ videoEntries) (active next : Fin 3) :
    remapEntry (storageLocation active) (storageLocation next) entry ∈ videoEntries := by
  have closed : ∀ entry ∈ videoEntries, ∀ active next : Fin 3,
      remapEntry (storageLocation active) (storageLocation next) entry ∈ videoEntries := by decide
  exact closed entry listed active next

/-- The remap loop of a switch keeps all entries after the first. -/
theorem Directories.shown (directories : Directories machine) {next : Fin 3}
    (hidden : next ≠ machine.console.activeTerminalIndex) :
    Directories (setActiveTerminal next (switchScreens next machine)) where
  storage terminal := by
    change ((showTerminal next machine.console).terminals terminal).storageLocation = _
    rw [showTerminal_terminals hidden]
    exact directories.storage terminal
  initial := directories.initial
  video slot small := by
    rcases directories.video slot small with clean | ⟨present, rest⟩
    · exact .inl clean
    · refine .inr ⟨present, fun index positive bound => ?_⟩
      change remapPages _ _ machine.videoMemPageTable slot index = _
      rw [remapPages, if_neg (fun first => absurd first.2 (Nat.ne_of_gt positive))]
      exact rest index positive bound
  entries slot small := by
    change remapPages _ _ machine.videoMemPageTable slot 0 ∈ videoEntries
    rw [remapPages, if_pos ⟨by simp only [numMaxProcesses]; omega, rfl⟩, directories.storage,
      directories.storage]
    exact remapEntry_mem (directories.entries slot small) _ _

/-- An accepted `vidmap` installs the video page table of the running process. -/
theorem Directories.installed (directories : Directories machine) {screenStart : Nat}
    (inPage : mb128 ≤ screenStart ∧ screenStart ≤ mb128 + mb4 - 4) :
    Directories (vidmap screenStart machine).machine ∧
      ∀ slot ≠ machine.currProcess - 1,
        (vidmap screenStart machine).machine.pageDirectoryArray slot =
          machine.pageDirectoryArray slot := by
  simp only [mb128, mb4] at inPage
  rw [vidmap, if_neg (by simp only [mb128, mb4]; omega)]
  refine ⟨⟨directories.storage, ?_, ?_, ?_⟩, fun slot other => Function.update_of_ne other ..⟩
  · intro slot small index bound other
    dsimp only
    by_cases own : slot = machine.currProcess - 1
    · rw [own, Function.update_self, Function.update_of_ne other, ← own]
      exact directories.initial slot small index bound other
    · rw [Function.update_of_ne own]
      exact directories.initial slot small index bound other
  · intro slot small
    dsimp only
    by_cases own : slot = machine.currProcess - 1
    · rw [own, Function.update_self, Function.update_self, Function.update_self]
      refine .inr ⟨rfl, fun index positive bound => ?_⟩
      rw [if_neg (Nat.ne_of_gt positive), if_pos bound]
    · rw [Function.update_of_ne own, Function.update_of_ne own]
      exact directories.video slot small
  · intro slot small
    dsimp only
    by_cases own : slot = machine.currProcess - 1
    · rw [own, Function.update_self, if_pos rfl]
      decide
    · rw [Function.update_of_ne own]
      exact directories.entries slot small

/-- The condition makes the directory of a new process clean. -/
theorem Directories.clean (directories : Directories machine) {slot : Nat} (small : slot < 6)
    (absent : (machine.pageDirectoryArray slot 64).attributes &&& 1 = 0) :
    machine.pageDirectoryArray slot 64 = initialEntry slot 64 := by
  rcases directories.video slot small with clean | ⟨present, _⟩
  · exact clean
  · rw [present] at absent
    exact absurd absent (show ¬ (7 &&& 1 = 0) by decide)

theorem Owned.keep (owned : Owned machine log)
    (directory : after.pageDirectoryArray = machine.pageDirectoryArray)
    (active : ∀ slot, after.active slot = true → machine.active slot = true)
    (since : ∀ slot, mapped (slot + 1) log = true → mapped (slot + 1) later = true) :
    Owned after later := by
  intro slot on table
  rw [directory] at table
  exact since slot (owned slot (active slot on) table)

/-- A new process in a clean slot has no video page table. -/
theorem Owned.create (owned : Owned machine log) {new : Nat}
    (directory : after.pageDirectoryArray = machine.pageDirectoryArray)
    (active : after.active = Function.update machine.active new true)
    (clean : machine.pageDirectoryArray new 64 = initialEntry new 64)
    (since : ∀ slot ≠ new, mapped (slot + 1) log = true → mapped (slot + 1) later = true) :
    Owned after later := by
  intro slot on table
  rw [directory] at table
  rw [active] at on
  by_cases same : slot = new
  · subst same
    exact absurd clean table
  · rw [Function.update_of_ne same] at on
    exact since slot same (owned slot on table)

/-- An `execute` that starts a process has loaded its program. -/
theorem creates_execute {fs : FileSystem} {command : Option CString} {stack : List UInt8}
    {outcome : Outcome} (call : execute fs command stack machine = .ok outcome)
    (started : outcome.transfer ≠ .returned (-1)) :
    creates fs machine (.execute command stack) = true := by
  unfold execute at call
  cases free : machine.freeSlot with
  | none =>
      rw [free] at call
      cases call
      exact absurd rfl started
  | some slot =>
      rw [free] at call
      cases command with
      | none => cases call
      | some command =>
          cases load : loadCommand fs command stack slot machine with
          | error stop =>
              simp only [load] at call
              cases call
          | ok loaded =>
              simp only [load] at call
              have accepted : loaded.1 ≠ -1 := by
                intro failed
                rw [if_pos failed] at call
                cases call
                exact started rfl
              simp only [creates, free, load]
              exact bne_iff_ne.2 accepted

/-- Under the condition every step keeps the directories and their owners. -/
theorem Directories.step {fs : FileSystem} {event : Event} {next : System}
    (directories : Directories machine) (owned : Owned machine log)
    (running : Running machine shells) (condition : CleanCreation fs ⟨machine, log⟩ (.event event))
    (stepped : StepCase fs machine log event next) :
    Directories next.machine ∧ Owned next.machine next.log := by
  have absent {slot : Nat} (free : machine.freeSlot = some slot)
      (created : creates fs machine event = true) :
      machine.pageDirectoryArray slot 64 = initialEntry slot 64 := by
    have checked := condition created
    change machine.freeSlot.all _ = true at checked
    rw [free] at checked
    exact directories.clean (freeSlot_eq_some free).1 (by simpa using checked)
  cases stepped with
  | moved esp ebp _ _ => exact ⟨{ directories with }, owned⟩
  | returned kernel => exact ⟨{ directories with }, owned⟩
  | refused kernel => exact ⟨{ directories with }, owned⟩
  | failed kernel command stack slot free change frames =>
      exact ⟨directories.keep (fun _ => rfl) rfl rfl, owned⟩
  | started kernel command stack slot free change frames call =>
      have created := creates_execute call Transfer.noConfusion
      refine ⟨directories.keep (fun terminal => (setActiveProcess_places _ _ _ terminal).1) rfl rfl,
        owned.create rfl rfl (absent free created) fun other different since => ?_⟩
      exact mapped_start_of (fun same => different (Nat.succ_injective same)) since
  | restarted kernel fileArray root =>
      exact ⟨directories.keep (fun _ => rfl) rfl rfl, owned⟩
  | left kernel fileArray child =>
      refine ⟨directories.keep (fun terminal => (setActiveProcess_places _ _ _ terminal).1) rfl rfl,
        owned.keep rfl (fun slot on => leftMachine_active on) fun _ since => since⟩
  | mapped kernel screenStart inPage =>
      obtain ⟨installed, others⟩ := directories.installed inPage
      have same := undisturbed_vidmap machine shells screenStart
      have positive := running.currProcess_ne_zero
      refine ⟨installed, fun slot on table => ?_⟩
      change (vidmap screenStart machine).machine.active slot = true at on
      change mapped (slot + 1) (.vidmapped machine.currProcess :: log) = true
      by_cases own : slot = machine.currProcess - 1
      · have pid : machine.currProcess = slot + 1 := by omega
        simp [mapped, pid]
      · rw [others slot own] at table
        rw [same.active] at on
        simp [mapped, owned slot on table]
  | resumed kernel index runnable =>
      obtain ⟨console, _, active, _⟩ := dispatch_fields index
        (machine.console.terminals index).activeProcess.toNat machine.saveContext
      obtain ⟨directory, _, table⟩ := dispatch_pages index
        (machine.console.terminals index).activeProcess.toNat machine.saveContext
      refine ⟨directories.keep (fun _ => by rw [console]; rfl) directory table,
        owned.keep directory (fun slot on => ?_) fun _ since => since⟩
      change (dispatch index _ machine.saveContext).active slot = true at on
      rw [active] at on
      exact on
  | unchanged kernel target => exact ⟨directories, owned⟩
  | shown kernel terminal hidden occupied => exact ⟨directories.shown hidden, owned⟩
  | seeded kernel terminal hidden vacant slot free frames =>
      have created : creates fs machine (.switchTerminal terminal) = true :=
        decide_eq_true ⟨terminal, rfl, hidden, vacant⟩
      have base := directories.shown hidden
      refine ⟨base.keep (fun other =>
          (setActiveProcess_places (switchScreens terminal machine) _ _ other).1) rfl rfl,
        owned.create rfl rfl (absent free created) fun other different since => ?_⟩
      exact mapped_seed_of _ (fun same => different (Nat.succ_injective same)) since

end

/-- The states of the runs that meet the condition, with further calls of `initPaging`. -/
def PagedReachable (fs : FileSystem) (condition : System → PagedEvent → Prop)
    (system : System) : Prop :=
  ∃ machine stack beyond events initial, boot fs machine stack beyond = .ok initial ∧
    Along condition (pagedStep fs) initial events ∧
      run (pagedStep fs) initial events = .ok system

theorem directories_boot {fs : FileSystem} {machine : Machine} {stack : BootStack}
    {beyond : List UInt8} {initial : System} (booted : boot fs machine stack beyond = .ok initial) :
    Directories initial.machine ∧ Owned initial.machine initial.log := by
  obtain ⟨slot, change, frames, free, rfl⟩ := boot_cases booted
  have directories : Directories (startUp machine stack) :=
    directories_initPaging _ (fun _ => rfl) fun _ _ => List.mem_cons_self
  refine ⟨directories.keep (fun terminal => (setActiveProcess_places _ _ _ terminal).1) rfl rfl, ?_⟩
  intro other on table
  change Function.update (fun _ => false) slot true other = true at on
  by_cases same : other = slot
  · rw [same] at table
    exact absurd (initPaging_clean _ (freeSlot_eq_some free).1) table
  · rw [Function.update_of_ne same] at on
    cases on

/-- If every new process gets a clean slot, then the user pages of every process are its own
program page and the video page that it has mapped itself. -/
theorem isolated_cleanCreation {fs : FileSystem} {system : System}
    (reachable : PagedReachable fs (CleanCreation fs) system) : Isolated system := by
  obtain ⟨machine, stack, beyond, events, initial, booted, allowed, reached⟩ := reachable
  have sound := run_invariant (fun system => (∃ shells, Running system.machine shells) ∧
      Directories system.machine ∧ Owned system.machine system.log)
    (fun system event next kept clean stepped => by
      obtain ⟨⟨shells, running⟩, directories, owned⟩ := kept
      cases event with
      | initPaging =>
          cases stepped
          have restored := directories_initPaging system.machine directories.storage
            directories.entries
          refine ⟨⟨shells, { running with }⟩, restored, fun slot on table => ?_⟩
          have bound := running.bounded (slot + 1) ((running.active slot).1 on)
          exact absurd (initPaging_clean _ (by omega)) table
      | event event =>
          have listed := step_cases stepped
          exact ⟨running.step listed, directories.step owned running clean listed⟩)
    ⟨running_boot booted, directories_boot booted⟩ allowed reached
  obtain ⟨⟨shells, running⟩, directories, owned⟩ := sound
  apply directories.isolated owned
  intro slot active
  have bound := running.bounded (slot + 1) ((running.active slot).1 active)
  omega

/-- The first shell and its child both map a page, and the paging is set up again in between. -/
def cleanEvents : List PagedEvent :=
  [.event (.kernelStack 0x7FD000 0x7FD000), .event (.vidmap mb128), .initPaging,
    .event (.execute (some shellName) []), .event (.kernelStack 0x7FB000 0x7FB000),
    .event (.vidmap mb128)]

theorem isolated_cleanEvents :
    ∃ system : System, Isolated system ∧ system.machine.userFrame 0 (64 * numEntries) = none ∧
      system.machine.userFrame 1 (64 * numEntries) = some 0xB8000 := by
  have passed : bootCheck shellImage coldMachine bootStack [] (pagedStep shellImage) cleanEvents
      (fun initial system =>
        decide (Along (CleanCreation shellImage) (pagedStep shellImage) initial cleanEvents) &&
          decide (system.machine.userFrame 0 (64 * numEntries) = none ∧
            system.machine.userFrame 1 (64 * numEntries) = some 0xB8000)) = true := by
    decide +kernel
  obtain ⟨initial, system, booted, reached, checked⟩ := bootCheck_sound passed
  rw [Bool.and_eq_true, decide_eq_true_eq, decide_eq_true_eq] at checked
  exact ⟨system, isolated_cleanCreation ⟨_, _, _, _, initial, booted, checked.1, reached⟩,
    checked.2⟩

/-- A child maps a page and halts, and the next child gets the same slot. -/
def staleEvents : List PagedEvent :=
  [.event (.kernelStack 0x7FD000 0x7FD000), .event (.execute (some shellName) []),
    .event (.kernelStack 0x7FB000 0x7FB000), .event (.vidmap mb128), .event .halt,
    .event (.execute (some shellName) [])]

/-- The second child inherits the video page of the first. -/
theorem staleEvents_not_isolated :
    ∃ system : System, PagedReachable shellImage (fun _ _ => True) system ∧ ¬ Isolated system := by
  have passed : bootCheck shellImage coldMachine bootStack [] (pagedStep shellImage) staleEvents
      (fun _ system => system.machine.active 1 && !mapped 2 system.log &&
        (system.machine.userFrame 1 (64 * numEntries)).isSome) = true := by
    decide +kernel
  obtain ⟨initial, system, booted, reached, checked⟩ := bootCheck_sound passed
  simp only [Bool.and_eq_true, Bool.not_eq_true'] at checked
  refine ⟨system, ⟨_, _, _, _, initial, booted, along_true _ _ _, reached⟩, fun isolated => ?_⟩
  have inherited := isolated.other 1 checked.1.1 (64 * numEntries) (by decide) (by decide)
    (Option.isSome_iff_ne_none.1 checked.2)
  rw [checked.1.2] at inherited
  exact absurd inherited.2 Bool.false_ne_true

end ComputerSystems.Kernel
