import ComputerSystems.Proof.Kernel.ProcessTable

namespace ComputerSystems.Kernel
open ComputerSystems.Library

/-- The process has called `vidmap` since it was created. -/
def mapped (pid : Nat) : List Action → Bool
  | [] => false
  | .vidmapped other :: earlier => other == pid || mapped pid earlier
  | .start other :: earlier => other != pid && mapped pid earlier
  | .seed other _ :: earlier => other != pid && mapped pid earlier
  | .suspend _ _ :: earlier => mapped pid earlier
  | .resume _ _ :: earlier => mapped pid earlier
  | .continued _ :: earlier => mapped pid earlier
  | .restart _ :: earlier => mapped pid earlier

theorem mapped_start {pid other : Nat} {log : List Action}
    (since : mapped pid (.start other :: log) = true) : pid ≠ other ∧ mapped pid log = true := by
  simp only [mapped, Bool.and_eq_true, bne_iff_ne] at since
  exact ⟨Ne.symm since.1, since.2⟩

theorem mapped_seed {pid other : Nat} {context : Context} {log : List Action}
    (since : mapped pid (.seed other context :: log) = true) :
    pid ≠ other ∧ mapped pid log = true := by
  simp only [mapped, Bool.and_eq_true, bne_iff_ne] at since
  exact ⟨Ne.symm since.1, since.2⟩

theorem mapped_start_of {pid other : Nat} {log : List Action} (different : pid ≠ other)
    (since : mapped pid log = true) : mapped pid (.start other :: log) = true := by
  simp [mapped, Ne.symm different, since]

theorem mapped_seed_of {pid other : Nat} {log : List Action} (context : Context)
    (different : pid ≠ other) (since : mapped pid log = true) :
    mapped pid (.seed other context :: log) = true := by
  simp [mapped, Ne.symm different, since]

theorem mapped_vidmapped {pid other : Nat} {log : List Action}
    (since : mapped pid (.vidmapped other :: log) = true) (different : pid ≠ other) :
    mapped pid log = true := by
  simp only [mapped, Bool.or_eq_true, beq_iff_eq] at since
  exact since.resolve_left (Ne.symm different)

/-- The screen of a terminal is the real one if the terminal is active, or else its storage. -/
def screenPlace (active terminal : Fin 3) : Nat :=
  if terminal = active then videoBase else storageLocation terminal

@[simp] theorem screenPlace_self (active : Fin 3) : screenPlace active active = videoBase :=
  if_pos rfl

theorem screenPlace_of_ne {active terminal : Fin 3} (hidden : terminal ≠ active) :
    screenPlace active terminal = storageLocation terminal := if_neg hidden

/-- Every video page in use shows the screen of its owner's terminal. -/
structure PageFollows (system : System) : Prop where
  videoStart : ∀ terminal, (system.machine.console.terminals terminal).videoStart =
    screenPlace system.machine.console.activeTerminalIndex terminal
  pages : ∀ slot, system.machine.active slot = true → mapped (slot + 1) system.log = true →
    system.machine.videoMemPageTable slot 0 &&& 0xFFFFF000 =
      (system.machine.console.terminals
        (system.machine.pcb (getProcessPCB (slot + 1))).terminalIndex).videoStart

/-- Every accepted `vidmap` comes from a process of the active terminal. -/
def ShownVidmap (system : System) : Event → Prop
  | .vidmap screenStart => mb128 ≤ screenStart → screenStart ≤ mb128 + mb4 - 4 →
      system.machine.currentPcb.terminalIndex = system.machine.console.activeTerminalIndex
  | _ => True

instance decidableShownVidmap (system : System) :
    (event : Event) → Decidable (ShownVidmap system event)
  | .vidmap screenStart => inferInstanceAs (Decidable (mb128 ≤ screenStart →
      screenStart ≤ mb128 + mb4 - 4 → _ = system.machine.console.activeTerminalIndex))
  | .kernelStack _ _ => .isTrue trivial
  | .userReturn => .isTrue trivial
  | .execute _ _ => .isTrue trivial
  | .halt => .isTrue trivial
  | .schedule => .isTrue trivial
  | .switchTerminal _ => .isTrue trivial

/-- The invariant behind `PageFollows` gives each entry with its attribute bits. -/
structure Follows (machine : Machine) (log : List Action) : Prop where
  storage : ∀ terminal,
    (machine.console.terminals terminal).storageLocation = storageLocation terminal
  videoStart : ∀ terminal, (machine.console.terminals terminal).videoStart =
    screenPlace machine.console.activeTerminalIndex terminal
  pages : ∀ slot, machine.active slot = true → mapped (slot + 1) log = true →
    machine.videoMemPageTable slot 0 =
      screenPlace machine.console.activeTerminalIndex
        (machine.process (slot + 1)).lineage.terminalIndex + 7

theorem screenPlace_frame (active terminal : Fin 3) :
    screenPlace active terminal + 7 &&& 0xFFFFF000 = screenPlace active terminal := by
  revert active terminal
  decide

theorem Follows.pageFollows {machine : Machine} {log : List Action}
    (follows : Follows machine log) : PageFollows ⟨machine, log⟩ where
  videoStart := follows.videoStart
  pages slot active since := by
    rw [follows.videoStart]
    change machine.videoMemPageTable slot 0 &&& 0xFFFFF000 = _
    rw [follows.pages slot active since, screenPlace_frame]
    rfl

/-- The remap loop moves a page to the new place of its screen. -/
theorem remapEntry_screenPlace {active next : Fin 3} (hidden : next ≠ active) (terminal : Fin 3) :
    remapEntry (storageLocation active) (storageLocation next)
      (screenPlace active terminal + 7) = screenPlace next terminal + 7 := by
  revert active next terminal
  decide

section
variable {machine after : Machine} {log later : List Action} {shells : Stacks (Fin 3) Nat}

/-- A step that leaves the screens and the tables alone keeps the pages of all old processes. -/
theorem Follows.keep (follows : Follows machine log) (running : Running machine shells)
    (places : ∀ terminal, (after.console.terminals terminal).storageLocation =
        (machine.console.terminals terminal).storageLocation ∧
      (after.console.terminals terminal).videoStart =
        (machine.console.terminals terminal).videoStart)
    (index : after.console.activeTerminalIndex = machine.console.activeTerminalIndex)
    (old : ∀ slot, after.active slot = true → mapped (slot + 1) later = true →
      machine.active slot = true ∧ mapped (slot + 1) log = true)
    (lineage : ∀ pid ∈ shells, (after.process pid).lineage = (machine.process pid).lineage)
    (table : ∀ slot, after.videoMemPageTable slot 0 = machine.videoMemPageTable slot 0) :
    Follows after later where
  storage terminal := (places terminal).1.trans (follows.storage terminal)
  videoStart terminal := by
    rw [(places terminal).2, index]
    exact follows.videoStart terminal
  pages slot active since := by
    obtain ⟨active, since⟩ := old slot active since
    rw [table, index, lineage (slot + 1) ((running.active slot).1 active)]
    exact follows.pages slot active since

/-- The exchange of two screens only moves their starts. -/
theorem showTerminal_terminals {next : Fin 3} {console : Console}
    (hidden : next ≠ console.activeTerminalIndex) (terminal : Fin 3) :
    (showTerminal next console).terminals terminal =
      { console.terminals terminal with
        videoStart :=
          if terminal = next then videoBase
          else if terminal = console.activeTerminalIndex then
            (console.terminals terminal).storageLocation
          else (console.terminals terminal).videoStart } := by
  unfold showTerminal Console.moveCursor Console.setTerminal
  dsimp only
  by_cases shown : terminal = next
  · subst shown
    rw [Function.update_self, Function.update_of_ne hidden, if_pos rfl]
  · rw [Function.update_of_ne shown, if_neg shown]
    by_cases old : terminal = console.activeTerminalIndex
    · subst old
      rw [Function.update_self, if_pos rfl]
    · rw [Function.update_of_ne old, if_neg old]

/-- The exchange puts every screen in its place beside the new active terminal. -/
theorem showTerminal_videoStart {console : Console} {next terminal : Fin 3}
    (storage : (console.terminals terminal).storageLocation = storageLocation terminal)
    (place : (console.terminals terminal).videoStart =
      screenPlace console.activeTerminalIndex terminal)
    (hidden : next ≠ console.activeTerminalIndex) :
    ((showTerminal next console).terminals terminal).videoStart = screenPlace next terminal := by
  rw [showTerminal_terminals hidden]
  unfold screenPlace at place ⊢
  by_cases shown : terminal = next
  · simp [shown]
  · by_cases old : terminal = console.activeTerminalIndex
    · simp only [if_neg shown, if_pos old]
      exact storage
    · simp only [if_neg shown, if_neg old] at place ⊢
      exact place

/-- A switch moves every page in use together with its screen. -/
theorem Follows.shown (follows : Follows machine log) (running : Running machine shells)
    {next : Fin 3} (hidden : next ≠ machine.console.activeTerminalIndex) :
    Follows (setActiveTerminal next (switchScreens next machine)) log where
  storage terminal := by
    change ((showTerminal next machine.console).terminals terminal).storageLocation = _
    rw [showTerminal_terminals hidden]
    exact follows.storage terminal
  videoStart terminal := by
    change ((showTerminal next machine.console).terminals terminal).videoStart =
      screenPlace next terminal
    exact showTerminal_videoStart (follows.storage terminal) (follows.videoStart terminal) hidden
  pages slot active since := by
    have bound := running.bounded (slot + 1) ((running.active slot).1 active)
    have loop : slot < numMaxProcesses ∧ 0 = 0 := ⟨by simp only [numMaxProcesses]; omega, rfl⟩
    change remapPages _ _ machine.videoMemPageTable slot 0 = _
    rw [remapPages, if_pos loop, follows.pages slot active since, follows.storage,
      follows.storage]
    exact remapEntry_screenPlace hidden _

/-- An accepted `vidmap` makes the page of the running process show the real screen. -/
theorem vidmap_page (machine : Machine) {screenStart : Nat}
    (inPage : mb128 ≤ screenStart ∧ screenStart ≤ mb128 + mb4 - 4) :
    (vidmap screenStart machine).machine.console = machine.console ∧
      (vidmap screenStart machine).machine.videoMemPageTable (machine.currProcess - 1) 0 =
        videoBase + 7 ∧
      ∀ slot ≠ machine.currProcess - 1,
        (vidmap screenStart machine).machine.videoMemPageTable slot =
          machine.videoMemPageTable slot := by
  simp only [mb128, mb4] at inPage
  rw [vidmap, if_neg (by simp only [mb128, mb4]; omega)]
  refine ⟨rfl, ?_, fun slot other => Function.update_of_ne other ..⟩
  dsimp only
  rw [Function.update_self, if_pos rfl]
  decide

theorem Follows.installed (follows : Follows machine log) (running : Running machine shells)
    (kernel : machine.cpu.userMode = false) {screenStart : Nat}
    (inPage : mb128 ≤ screenStart ∧ screenStart ≤ mb128 + mb4 - 4)
    (shown : machine.currentPcb.terminalIndex = machine.console.activeTerminalIndex) :
    Follows (vidmap screenStart machine).machine (.vidmapped machine.currProcess :: log) := by
  obtain ⟨console, own, others⟩ := vidmap_page machine inPage
  have same := undisturbed_vidmap machine shells screenStart
  have positive := running.currProcess_ne_zero
  constructor
  case storage => exact fun terminal => console ▸ follows.storage terminal
  case videoStart => exact fun terminal => console ▸ follows.videoStart terminal
  case pages =>
    intro slot active since
    rw [same.active] at active
    rw [console, same.lineage (slot + 1) ((running.active slot).1 active)]
    by_cases current : slot = machine.currProcess - 1
    · have pid : slot + 1 = machine.currProcess := by omega
      rw [current, own, ← current, pid, ← running.currentPcb kernel]
      change _ = screenPlace _ machine.currentPcb.terminalIndex + 7
      rw [shown, screenPlace, if_pos rfl]
    · rw [others slot current]
      exact follows.pages slot active (mapped_vidmapped since (by omega))

theorem setActiveProcess_places (machine : Machine) (index : Fin 3) (pid : Int)
    (terminal : Fin 3) :
    ((machine.setActiveProcess index pid).console.terminals terminal).storageLocation =
        (machine.console.terminals terminal).storageLocation ∧
      ((machine.setActiveProcess index pid).console.terminals terminal).videoStart =
        (machine.console.terminals terminal).videoStart :=
  ⟨machine.setActiveProcess_field Terminal.storageLocation index pid (fun _ => rfl) terminal,
    machine.setActiveProcess_field Terminal.videoStart index pid (fun _ => rfl) terminal⟩

/-- An active slot that is not the new one was active before. -/
theorem created_old {active : Nat → Bool} {slot new : Nat}
    (set : Function.update active new true slot = true)
    (since : slot + 1 ≠ new + 1 ∧ mapped (slot + 1) log = true) :
    active slot = true ∧ mapped (slot + 1) log = true := by
  have different : slot ≠ new := fun same => since.1 (congrArg (· + 1) same)
  rw [Function.update_of_ne different] at set
  exact ⟨set, since.2⟩

/-- Every step that meets the condition keeps the pages with their screens. -/
theorem Follows.step {fs : FileSystem} {event : Event} {next : System}
    (follows : Follows machine log) (running : Running machine shells)
    (shown : ShownVidmap ⟨machine, log⟩ event)
    (stepped : StepCase fs machine log event next) : Follows next.machine next.log := by
  have plain {cpu : Cpu} : Follows { machine with cpu := cpu } log := { follows with }
  cases stepped with
  | moved esp ebp _ _ => exact plain
  | returned kernel => exact plain
  | refused kernel => exact plain
  | failed kernel command stack slot free change frames =>
      have same := running.undisturbed_prepared free change frames (machine.currProcess - 1)
      exact follows.keep running (fun _ => ⟨rfl, rfl⟩) rfl (fun _ active since => ⟨active, since⟩)
        same.lineage fun _ => rfl
  | started kernel command stack slot free change frames call =>
      have same := running.undisturbed_prepared free change frames (slot : Int)
      have ready := running.undisturbed same rfl running.owner
      have base : Follows (prepared machine slot change frames slot) log :=
        follows.keep running (fun _ => ⟨rfl, rfl⟩) rfl (fun _ active since => ⟨active, since⟩)
          same.lineage fun _ => rfl
      obtain ⟨small, idle⟩ := freeSlot_eq_some free
      exact base.keep ready (setActiveProcess_places _ _ _) rfl
        (fun _ active since => created_old active (mapped_start since))
        (fun _ member => congrArg Pcb.lineage (ready.startProcess_process small idle member))
        fun _ => rfl
  | restarted kernel fileArray root =>
      exact follows.keep running (fun _ => ⟨rfl, rfl⟩) rfl (fun _ active since => ⟨active, since⟩)
        (fun pid _ => closedMachine_lineage machine fileArray pid) fun _ => rfl
  | left kernel fileArray child =>
      refine follows.keep running (setActiveProcess_places _ _ _) rfl ?_
        (fun pid _ => closedMachine_lineage machine fileArray pid) fun _ => rfl
      exact fun slot active since => ⟨leftMachine_active active, since⟩
  | mapped kernel screenStart inPage =>
      exact follows.installed running kernel inPage (shown inPage.1 inPage.2)
  | resumed kernel index runnable =>
      have same := undisturbed_saveContext running kernel
      obtain ⟨console, pcb, active, _⟩ := dispatch_fields index
        (machine.console.terminals index).activeProcess.toNat machine.saveContext
      have tables := (dispatch_pages index
        (machine.console.terminals index).activeProcess.toNat machine.saveContext).2.2
      refine follows.keep running (fun _ => by rw [console]; exact ⟨rfl, rfl⟩)
        (by rw [console]; rfl)
        (fun slot running since => ⟨by rw [active] at running; exact running, since⟩)
        (fun pid member => ?_) fun slot => by rw [tables]; rfl
      exact (congrArg Pcb.lineage (congrFun pcb _)).trans (same.lineage pid member)
  | unchanged kernel target => exact follows
  | shown kernel terminal hidden occupied => exact follows.shown running hidden
  | seeded kernel terminal hidden vacant slot free frames =>
      have ready := running.undisturbed (undisturbed_shown terminal) rfl running.owner
      have base := follows.shown running hidden
      exact base.keep ready (setActiveProcess_places (switchScreens terminal machine) _ _) rfl
        (fun _ active since => created_old active (mapped_seed since))
        (fun _ member => congrArg Pcb.lineage
          (running.shellMachine_process terminal free frames member)) fun _ => rfl

end

theorem follows_boot {fs : FileSystem} {machine : Machine} {stack : BootStack}
    {beyond : List UInt8} {initial : System} (booted : boot fs machine stack beyond = .ok initial) :
    Follows initial.machine initial.log := by
  obtain ⟨slot, change, frames, free, rfl⟩ := boot_cases booted
  constructor
  case storage => exact fun terminal => (setActiveProcess_places _ _ _ terminal).1
  case videoStart => exact fun terminal => (setActiveProcess_places _ _ _ terminal).2
  case pages =>
    intro other _ since
    exact absurd (mapped_start since).2 Bool.false_ne_true

/-- In a run whose accepted `vidmap` calls all come from the active terminal, every video page
follows its terminal. -/
theorem pageFollows_shownVidmap {fs : FileSystem} {system : System}
    (reachable : ReachableBy fs ShownVidmap system) : PageFollows system := by
  obtain ⟨machine, stack, beyond, events, initial, booted, allowed, reached⟩ := reachable
  have sound := run_invariant (fun system => (∃ shells, Running system.machine shells) ∧
      Follows system.machine system.log)
    (fun system event next kept shown stepped => by
      obtain ⟨⟨shells, running⟩, follows⟩ := kept
      have listed := step_cases stepped
      exact ⟨running.step listed, follows.step running shown listed⟩)
    ⟨running_boot booted, follows_boot booted⟩ allowed reached
  exact sound.2.pageFollows

/-- The first shell maps its page, the screen moves to the second terminal, and the second shell
maps its own page. -/
def twoPageEvents : List Event :=
  [.kernelStack 0x7FD000 0x7FD000, .vidmap mb128, .switchTerminal 1, .schedule,
    .kernelStack 0x7FB000 0x7FB000, .vidmap mb128]

theorem pageFollows_twoPages :
    ∃ system : System, PageFollows system ∧ system.machine.videoMemPageTable 0 0 = 0xB9007 ∧
      system.machine.videoMemPageTable 1 0 = 0xB8007 := by
  have passed : bootCheck shellImage coldMachine bootStack [] (step shellImage) twoPageEvents
      (fun initial system =>
        decide (Along ShownVidmap (step shellImage) initial twoPageEvents) &&
          decide (system.machine.videoMemPageTable 0 0 = 0xB9007 ∧
            system.machine.videoMemPageTable 1 0 = 0xB8007)) = true := by
    decide +kernel
  obtain ⟨initial, system, booted, reached, checked⟩ := bootCheck_sound passed
  rw [Bool.and_eq_true, decide_eq_true_eq, decide_eq_true_eq] at checked
  exact ⟨system, pageFollows_shownVidmap ⟨_, _, _, _, initial, booted, checked.1, reached⟩,
    checked.2⟩

/-- A `vidmap` by a process of a hidden terminal maps the real screen. -/
theorem hiddenVidmap_not_pageFollows :
    ∃ system : System, Reachable shellImage system ∧ ¬ PageFollows system := by
  have passed : bootCheck shellImage coldMachine bootStack [] (step shellImage)
      [.kernelStack 0x7FD000 0x7FD000, .switchTerminal 1, .vidmap mb128]
      (fun _ system => system.machine.active 0 && mapped 1 system.log &&
        decide (system.machine.videoMemPageTable 0 0 &&& 0xFFFFF000 ≠
          (system.machine.console.terminals
            (system.machine.pcb (getProcessPCB 1)).terminalIndex).videoStart)) = true := by
    decide +kernel
  obtain ⟨initial, system, booted, reached, checked⟩ := bootCheck_sound passed
  rw [Bool.and_eq_true, Bool.and_eq_true, decide_eq_true_eq] at checked
  refine ⟨system, ⟨_, _, _, _, initial, booted, reached⟩, fun follows => ?_⟩
  exact checked.2 (follows.pages 0 checked.1.1 checked.1.2)

end ComputerSystems.Kernel
