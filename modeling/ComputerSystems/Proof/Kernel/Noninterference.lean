import ComputerSystems.Proof.Kernel.ContextSwitch
import ComputerSystems.Proof.Kernel.Deeds
import ComputerSystems.Proof.Kernel.RtcTicks

namespace ComputerSystems.Kernel
open ComputerSystems.Library

/-- The frame of the program page of a slot. -/
def slotFrame (slot : Nat) : Nat := 0x800000 + slot * mb4

theorem slotFrame_injective {slot other : Nat} (same : slotFrame slot = slotFrame other) :
    slot = other := by
  unfold slotFrame at same
  dsimp only [mb4] at same
  omega

/-- What holds of the machine between any two deeds. -/
structure Sound (machine : Machine) : Prop where
  running : ∃ shells, Running machine shells
  directories : Directories machine
  directory : machine.cpu.cr3 = machine.currProcess - 1

/-- The process of a slot keeps its block but for the count of the clock, its page and its
directory. -/
structure Spares (slot : Nat) (machine after : Machine) : Prop where
  active : machine.active slot = true → after.active slot = true
  block : ∃ rtcCount, after.process (slot + 1) =
    { machine.process (slot + 1) with rtcCount := rtcCount }
  page : after.frames (slotFrame slot) = machine.frames (slotFrame slot)
  directory : after.pageDirectoryArray slot = machine.pageDirectoryArray slot

namespace Spares

variable {slot : Nat} {machine middle after : Machine}

theorem refl (slot : Nat) (machine : Machine) : Spares slot machine machine :=
  ⟨id, ⟨_, rfl⟩, rfl, rfl⟩

theorem trans (first : Spares slot machine middle) (second : Spares slot middle after) :
    Spares slot machine after := by
  obtain ⟨count, block⟩ := first.block
  obtain ⟨later, further⟩ := second.block
  refine ⟨second.active ∘ first.active, ⟨later, ?_⟩, second.page.trans first.page,
    second.directory.trans first.directory⟩
  rw [further, block]

end Spares

section Frames

variable {fs : FileSystem} {machine loaded after : Machine} {outcome : Outcome} {slot frame : Nat}

theorem loadProgram_frames {filename : CString} {status : Int}
    (finished : loadProgram fs filename machine = .ok (status, loaded))
    (apart : frame ≠ machine.programFrame) : loaded.frames frame = machine.frames frame := by
  unfold loadProgram at finished
  split at finished
  · cases finished
    rfl
  · split at finished
    · cases finished
      rfl
    · split at finished
      · cases finished
        rfl
      · dsimp only at finished
        split at finished
        · cases finished
        · split at finished
          · cases finished
          · split at finished
            · cases finished
              exact Function.update_of_ne apart _ _
            · split at finished <;> cases finished <;> exact Function.update_of_ne apart _ _

theorem Directories.programFrame (directories : Directories machine) (small : slot < 6)
    (directory : machine.cpu.cr3 = slot) : machine.programFrame = slotFrame slot := by
  have entry := directories.initial slot small 32 (by decide) (by decide)
  rw [Machine.programFrame, directory, Int.toNat_natCast, entry]
  rfl

theorem Directories.programFrame_loaded (directories : Directories machine) (small : slot < 6) :
    (machine.loadPageDirectory slot).programFrame = slotFrame slot := by
  have same : Directories (machine.loadPageDirectory slot) := { directories with }
  exact same.programFrame small rfl

/-- A call of `execute` stores to the page of the free slot only. -/
theorem execute_frames {command : Option CString} {stack : List UInt8}
    (directories : Directories machine) (finished : execute fs command stack machine = .ok outcome)
    (kept : ∀ free, machine.freeSlot = some free → frame ≠ slotFrame free) :
    outcome.machine.frames frame = machine.frames frame := by
  unfold execute at finished
  cases free : machine.freeSlot with
  | none =>
      rw [free] at finished
      cases finished
      rfl
  | some slot =>
      have apart := kept slot free
      rw [free] at finished
      cases command with
      | none => cases finished
      | some command =>
          dsimp only at finished
          split at finished
          · cases finished
          · next status loaded load =>
            rw [loadCommand] at load
            have same : loaded.frames frame = machine.frames frame := by
              refine (loadProgram_frames load fun same => apart ?_).trans rfl
              rw [same]
              refine Directories.programFrame_loaded ?_ (freeSlot_eq_some free).1
              exact { directories with }
            split at finished
            · cases finished
              exact same
            · cases finished
              exact same

/-- A new shell comes to the page of the free slot only. -/
theorem switchTerminal_frames {next : Nat} (directories : Directories machine)
    (finished : switchTerminal fs next machine = .ok after)
    (kept : ∀ free, machine.freeSlot = some free → frame ≠ slotFrame free) :
    after.frames frame = machine.frames frame := by
  unfold switchTerminal at finished
  split at finished
  · dsimp only at finished
    split at finished
    · cases finished
      rfl
    · next inRange hidden =>
      split at finished
      · cases finished
        rfl
      · split at finished
        · cases finished
          rfl
        · next slot free =>
          split at finished
          · cases finished
          · next status loaded load =>
            cases finished
            refine (loadProgram_frames load fun same => kept slot free ?_).trans rfl
            rw [same]
            refine Directories.programFrame_loaded ?_ (freeSlot_eq_some free).1
            exact { directories.shown hidden with }
  · cases finished
    rfl

end Frames

section Events

variable {fs : FileSystem} {machine : Machine} {log : List Action} {shells : Stacks (Fin 3) Nat}
variable {event : Event} {next : System} {slot : Nat}

theorem StepCase.directories (directories : Directories machine)
    (stepped : StepCase fs machine log event next) : Directories next.machine := by
  cases stepped with
  | moved | returned | refused | failed | restarted | unchanged => exact { directories with }
  | started kernel command stack slot free change frames call =>
      exact directories.keep (fun terminal => (setActiveProcess_places _ _ _ terminal).1) rfl rfl
  | left kernel fileArray child =>
      exact directories.keep (fun terminal => (setActiveProcess_places _ _ _ terminal).1) rfl rfl
  | mapped kernel screenStart inPage => exact (directories.installed inPage).1
  | resumed kernel index runnable =>
      obtain ⟨console, _⟩ := dispatch_fields index
        (machine.console.terminals index).activeProcess.toNat machine.saveContext
      obtain ⟨directory, _, table⟩ := dispatch_pages index
        (machine.console.terminals index).activeProcess.toNat machine.saveContext
      refine directories.keep (fun _ => ?_) directory table
      rw [console]
      rfl
  | shown kernel terminal hidden occupied => exact directories.shown hidden
  | seeded kernel terminal hidden vacant slot free frames =>
      exact (directories.shown hidden).keep (fun other =>
        (setActiveProcess_places (switchScreens terminal machine) _ _ other).1) rfl rfl

theorem StepCase.directory (sound : Sound machine) (stepped : StepCase fs machine log event next) :
    next.machine.cpu.cr3 = next.machine.currProcess - 1 := by
  cases stepped with
  | moved | returned | refused | restarted | unchanged => exact sound.directory
  | failed | left | shown | seeded => rfl
  | started kernel command stack slot free change frames call =>
      change (slot : Int) = ((slot + 1 : Nat) : Int) - 1
      omega
  | mapped kernel screenStart inPage =>
      obtain ⟨shells, running⟩ := sound.running
      have positive := running.currProcess_ne_zero
      change (vidmap screenStart machine).machine.cpu.cr3 =
        (vidmap screenStart machine).machine.currProcess - 1
      rw [vidmap_cr3 machine inPage, (undisturbed_vidmap machine shells screenStart).currProcess]
      omega
  | resumed kernel index runnable =>
      exact (dispatch_cr3 index _ _).trans (by rw [dispatch_currProcess])

theorem Sound.stepCase (sound : Sound machine) (stepped : StepCase fs machine log event next) :
    Sound next.machine := by
  obtain ⟨shells, running⟩ := sound.running
  exact ⟨running.step stepped, stepped.directories sound.directories, stepped.directory sound⟩

/-- No event changes the page of a process that does not run. -/
theorem step_frames {system : System} (sound : Sound system.machine)
    (active : system.machine.active slot = true) (rests : system.machine.currProcess ≠ slot + 1)
    (stepped : step fs system event = .ok next) :
    next.machine.frames (slotFrame slot) = system.machine.frames (slotFrame slot) := by
  obtain ⟨machine, log⟩ := system
  have apart (free : Nat) (found : machine.freeSlot = some free) :
      slotFrame slot ≠ slotFrame free := fun same => by
    rw [slotFrame_injective same, (freeSlot_eq_some found).2] at active
    cases active
  cases event <;> simp only [step] at stepped <;> split at stepped
  case kernelStack.isTrue =>
    cases stepped
    rfl
  case userReturn.isFalse =>
    cases stepped
    rfl
  case execute.isFalse =>
    obtain ⟨outcome, call, rfl⟩ := map_ok stepped
    exact execute_frames sound.directories call apart
  case halt.isFalse =>
    obtain ⟨outcome, call, rfl⟩ := map_ok stepped
    obtain ⟨fileArray, ⟨_, rfl⟩ | ⟨_, rfl⟩⟩ := halt_cases call <;> rfl
  case vidmap.isFalse screenStart _ =>
    cases stepped
    obtain ⟨shells, running⟩ := sound.running
    have positive := running.currProcess_ne_zero
    have small := running.bounded _ running.mem_currProcess
    have directory := sound.directory
    dsimp only at positive small directory rests
    have own : machine.programFrame = slotFrame (machine.currProcess - 1) :=
      sound.directories.programFrame (by omega) (by dsimp only; omega)
    dsimp only
    unfold vidmap
    split
    · rfl
    · refine Function.update_of_ne (fun same => ?_) _ _
      have := slotFrame_injective (same.trans own)
      omega
  case schedule.isFalse =>
    obtain ⟨after, call, rfl⟩ := map_ok stepped
    obtain ⟨index, _, rfl⟩ := schedule_ok call
    unfold dispatch
    dsimp only
    split_ifs <;> rfl
  case switchTerminal.isFalse =>
    obtain ⟨after, call, rfl⟩ := map_ok stepped
    exact switchTerminal_frames sound.directories call apart
  all_goals cases stepped

/-- A change of the block of the running process. -/
theorem Running.updatePcb_rests (running : Running machine shells)
    (kernel : machine.cpu.userMode = false) (change : Pcb → Pcb) {pid : Nat} (small : pid ≤ 6)
    (rests : machine.currProcess ≠ pid) :
    (machine.updatePcb (getCurrentProcessPCB machine.cpu.esp) change).process pid =
      machine.process pid := by
  rw [(running.owner kernel).1]
  exact machine.updatePcb_process_of_ne (running.bounded _ running.mem_currProcess) small
    rests.symm change

theorem StepCase.block (running : Running machine shells) (active : machine.active slot = true)
    (rests : machine.currProcess ≠ slot + 1) (stepped : StepCase fs machine log event next) :
    next.machine.process (slot + 1) = machine.process (slot + 1) := by
  have member := (running.active slot).1 active
  have small := running.bounded _ member
  cases stepped with
  | moved | returned | refused | unchanged | shown => rfl
  | failed kernel command stack free found change frames =>
      exact running.block_free found change member
  | started kernel command stack free found change frames call =>
      have placed : Represents (prepared machine free change frames free) shells :=
        running.toRepresents.congr (fun _ => rfl)
          (fun pid member => congrArg Pcb.lineage (running.block_free found change member)) rfl
      exact (placed.startProcess_process (freeSlot_eq_some found).1 (freeSlot_eq_some found).2
        member).trans (running.block_free found change member)
  | restarted kernel fileArray root =>
      exact running.updatePcb_rests kernel (fun pcb => { pcb with fileArray := fileArray }) small
        rests
  | left kernel fileArray child =>
      exact running.updatePcb_rests kernel (fun pcb => { pcb with fileArray := fileArray }) small
        rests
  | mapped kernel screenStart inPage =>
      unfold vidmap
      split <;> rfl
  | resumed kernel index runnable =>
      dsimp only
      unfold Machine.process
      rw [(dispatch_fields index _ machine.saveContext).2.1]
      exact running.updatePcb_rests kernel _ small rests
  | seeded kernel terminal hidden vacant free found frames =>
      exact running.shellMachine_process terminal found frames member

/-- An event spares every process that does not run. -/
theorem Sound.step {system : System} (sound : Sound system.machine)
    (active : system.machine.active slot = true) (rests : system.machine.currProcess ≠ slot + 1)
    (stepped : Kernel.step fs system event = .ok next) :
    Spares slot system.machine next.machine := by
  obtain ⟨shells, running⟩ := sound.running
  have listed := step_cases stepped
  refine ⟨fun _ => ?_, ⟨_, (listed.block running active rests).trans rfl⟩,
    step_frames sound active rests stepped, ?_⟩
  · have positive := running.currProcess_ne_zero
    cases listed with
    | moved | returned | refused | failed | restarted | unchanged | shown => exact active
    | started kernel command stack free found change frames call =>
        change Function.update system.machine.active free true slot = true
        rw [Function.update_apply, active, ite_self]
    | left kernel fileArray child =>
        change Function.update system.machine.active _ false slot = true
        rw [Function.update_of_ne (by omega)]
        exact active
    | mapped kernel screenStart inPage =>
        rw [(undisturbed_vidmap system.machine shells screenStart).active]
        exact active
    | resumed kernel index runnable =>
        rw [(dispatch_fields index _ system.machine.saveContext).2.2.1]
        exact active
    | seeded kernel terminal hidden vacant free found frames =>
        change Function.update system.machine.active free true slot = true
        rw [Function.update_apply, active, ite_self]
  · have positive := running.currProcess_ne_zero
    cases listed with
    | mapped kernel screenStart inPage =>
        exact (sound.directories.installed inPage).2 slot (by omega)
    | resumed kernel index runnable =>
        rw [(dispatch_pages index _ system.machine.saveContext).1]
        rfl
    | _ => rfl

end Events

/-- A deed that leads to a sound machine and spares every process that does not run. -/
structure Guarded (machine after : Machine) : Prop where
  sound : Sound after
  spares : ∀ slot, machine.active slot = true → machine.currProcess ≠ slot + 1 →
    Spares slot machine after

section Deeds

variable {fs : FileSystem} {machine after : Machine}

/-- A change of the files of the running process and of the screens. -/
theorem Sound.files (sound : Sound machine) (kernel : machine.cpu.userMode = false)
    (change : Pcb → Pcb) (own : OwnFiles machine.currentPcb (change machine.currentPcb))
    {console : Console} (seats : SameSeats machine.console console) :
    Guarded machine { machine.updatePcb (getCurrentProcessPCB machine.cpu.esp) change with
      console := console } := by
  obtain ⟨shells, running⟩ := sound.running
  obtain ⟨fileArray, rtcCount, changed⟩ := own
  have lineage (pid : Nat) : ((machine.updatePcb (getCurrentProcessPCB machine.cpu.esp)
      change).process pid).lineage = (machine.process pid).lineage :=
    machine.updatePcb_field Pcb.lineage _ _ ((congrArg Pcb.lineage changed).trans rfl) _
  have context (pid : Nat) : ((machine.updatePcb (getCurrentProcessPCB machine.cpu.esp)
      change).process pid).context = (machine.process pid).context :=
    machine.updatePcb_field Pcb.context _ _ ((congrArg Pcb.context changed).trans rfl) _
  refine ⟨⟨⟨shells, running.undisturbed ?_ rfl running.owner⟩, ?_, sound.directory⟩, ?_⟩
  · exact ⟨fun terminal => (seats terminal).1, fun pid _ => lineage pid,
      fun pid _ _ => context pid, rfl, rfl⟩
  · exact sound.directories.keep (fun terminal => (seats terminal).2) rfl rfl
  · intro slot active rests
    have small := running.bounded _ ((running.active slot).1 active)
    exact ⟨id, ⟨_, (running.updatePcb_rests kernel change small rests).trans rfl⟩, rfl, rfl⟩

/-- A change of the keyboard and of the screens. -/
theorem Sound.screens (sound : Sound machine) (keyboard : Keyboard) {console : Console}
    (seats : SameSeats machine.console console) :
    Guarded machine { machine with keyboard := keyboard, console := console } := by
  obtain ⟨shells, running⟩ := sound.running
  refine ⟨⟨⟨shells, running.undisturbed ?_ rfl running.owner⟩, ?_, sound.directory⟩,
    fun _ _ _ => ⟨id, ⟨_, rfl⟩, rfl, rfl⟩⟩
  · exact ⟨fun terminal => (seats terminal).1, fun _ _ => rfl, fun _ _ _ => rfl, rfl, rfl⟩
  · exact sound.directories.keep (fun terminal => (seats terminal).2) rfl rfl

/-- A change of the page of the running process. -/
theorem Sound.ownPage (sound : Sound machine) (page : Nat → UInt8) :
    Guarded machine { machine with
      frames := Function.update machine.frames (slotFrame (machine.currProcess - 1)) page } := by
  obtain ⟨shells, running⟩ := sound.running
  refine ⟨⟨⟨shells, { running with }⟩, { sound.directories with }, sound.directory⟩,
    fun slot _ rests => ⟨id, ⟨_, rfl⟩, ?_, rfl⟩⟩
  have positive := running.currProcess_ne_zero
  have apart : slotFrame slot ≠ slotFrame (machine.currProcess - 1) := by
    intro same
    have := slotFrame_injective same
    omega
  dsimp only
  rw [Function.update_of_ne apart]

theorem Sound.programFrame (sound : Sound machine) :
    machine.programFrame = slotFrame (machine.currProcess - 1) := by
  obtain ⟨shells, running⟩ := sound.running
  have positive := running.currProcess_ne_zero
  have small := running.bounded _ running.mem_currProcess
  refine sound.directories.programFrame (by omega) (sound.directory.trans ?_)
  omega

theorem Sound.getargs {buf : Nat} {nbytes : Int} {outcome : Outcome} (sound : Sound machine)
    (finished : Kernel.getargs buf nbytes machine = .ok outcome) :
    Guarded machine outcome.machine := by
  have same : Guarded machine machine := ⟨sound, fun slot _ _ => .refl slot machine⟩
  unfold Kernel.getargs at finished
  split at finished
  · cases finished
    exact same
  · dsimp only at finished
    split_ifs at finished
    · cases finished
      exact same
    · cases finished
      exact same
    · cases finished
      rw [sound.programFrame]
      exact sound.ownPage _

theorem tableFrame_aligned {entry frame : Nat} (found : tableFrame entry = some frame) :
    frame % kb4 = 0 := by
  unfold tableFrame at found
  split at found
  · cases found
    rw [show kb4 = 2 ^ 12 from rfl, Nat.and_mod_two_pow]
    exact Nat.and_zero _
  · cases found

/-- User code reaches its own page and the video pages. -/
theorem Sound.userFrame (sound : Sound machine) {page frame : Nat}
    (bound : page < numEntries * numEntries)
    (found : machine.userFrame machine.cpu.cr3.toNat page = some frame) :
    frame + kb4 ≤ 0x800000 ∨
      frame = slotFrame (machine.currProcess - 1) + page % numEntries * kb4 := by
  obtain ⟨shells, running⟩ := sound.running
  have positive := running.currProcess_ne_zero
  have small := running.bounded _ running.mem_currProcess
  have slot : machine.cpu.cr3.toNat = machine.currProcess - 1 := by
    rw [sound.directory]
    omega
  rw [slot] at found
  by_cases inside : page / numEntries = 32
  · rw [sound.directories.userFrame_own (by omega) inside] at found
    exact .inr (Option.some.inj found).symm
  · obtain ⟨rfl, used, low⟩ := sound.directories.userFrame_other (by omega) bound inside found
    have mapped := (sound.directories.video (machine.currProcess - 1) (by omega)).resolve_left used
    have aligned : frame % kb4 = 0 := by
      unfold Machine.userFrame at found
      rw [show 64 * numEntries / numEntries = 64 from rfl, mapped.1] at found
      exact tableFrame_aligned ((if_neg (show ¬ (7 &&& 5 ≠ 5) by decide)).symm.trans found)
    left
    dsimp only [kb4] at *
    omega

/-- A store of user code spares the pages of the other processes. -/
theorem Sound.storePhysical (sound : Sound machine) {page frame offset : Nat}
    (bound : page < numEntries * numEntries) (inside : offset < kb4)
    (found : machine.userFrame machine.cpu.cr3.toNat page = some frame) (byte : UInt8) :
    Guarded machine (machine.storePhysical (frame + offset) byte) := by
  unfold Machine.storePhysical
  rcases sound.userFrame bound found with low | own
  · rw [if_pos (by omega)]
    exact sound.screens machine.keyboard (.refl _)
  · have index := Nat.mod_lt page (show 0 < numEntries by decide)
    have base : (frame + offset) / mb4 * mb4 = slotFrame (machine.currProcess - 1) := by
      rw [own]
      dsimp only [slotFrame, mb4, kb4, numEntries] at *
      omega
    have high : ¬ frame + offset < 0x800000 := by
      rw [own]
      dsimp only [slotFrame]
      omega
    rw [if_neg high, base]
    exact sound.ownPage _

theorem Sound.rtcInt (sound : Sound machine) :
    Guarded machine { machine with pcb := Kernel.rtcInt machine.pcb } := by
  obtain ⟨shells, running⟩ := sound.running
  have ticked (pid : Nat) (member : pid ∈ shells) : ∃ rtcCount,
      Kernel.rtcInt machine.pcb (getProcessPCB pid) =
        { machine.process pid with rtcCount := rtcCount } := by
    rw [rtcInt_block machine.pcb ⟨Nat.pos_of_ne_zero (running.ne_zero member),
      running.bounded pid member⟩, rtcTick]
    split_ifs <;> exact ⟨_, rfl⟩
  refine ⟨⟨⟨shells, running.undisturbed ⟨fun _ => rfl, fun pid member => ?_,
    fun pid member _ => ?_, rfl, rfl⟩ rfl running.owner⟩, { sound.directories with },
      sound.directory⟩, fun slot active _ => ⟨id, ?_, rfl, rfl⟩⟩
  · obtain ⟨rtcCount, same⟩ := ticked pid member
    exact (congrArg Pcb.lineage same).trans rfl
  · obtain ⟨rtcCount, same⟩ := ticked pid member
    exact (congrArg Pcb.context same).trans rfl
  · exact ticked (slot + 1) ((running.active slot).1 active)

theorem Guarded.refl (sound : Sound machine) : Guarded machine machine :=
  ⟨sound, fun slot _ _ => .refl slot machine⟩

/-- A guarded deed may follow another one of the same process. -/
theorem Guarded.trans {middle : Machine} (first : Guarded machine middle)
    (current : middle.currProcess = machine.currProcess) (second : Guarded middle after) :
    Guarded machine after :=
  ⟨second.sound, fun slot active rests => (first.spares slot active rests).trans
    (second.spares slot ((first.spares slot active rests).active active) (current ▸ rests))⟩

theorem Sound.event {event : Event} (sound : Sound machine)
    (stepped : (Kernel.step fs ⟨machine, []⟩ event).map System.machine = .ok after) :
    Guarded machine after := by
  obtain ⟨next, finished, rfl⟩ := map_ok stepped
  exact ⟨sound.stepCase (step_cases finished), fun slot active rests =>
    Sound.step sound active rests finished⟩

theorem Sound.switchTerminal {next : Nat} (sound : Sound machine)
    (kernel : machine.cpu.userMode = false)
    (finished : Kernel.switchTerminal fs next machine = .ok after) : Guarded machine after := by
  have stepped : (Kernel.step fs ⟨machine, []⟩ (.switchTerminal next)).map System.machine =
      .ok after := by
    rw [Kernel.step]
    dsimp only
    rw [if_neg (by rw [kernel]; decide), finished]
    rfl
  exact sound.event stepped

/-- A key changes the screens, and it may switch to another terminal. -/
theorem Sound.key {scancode nextScancode : UInt8} (sound : Sound machine)
    (kernel : machine.cpu.userMode = false)
    (finished : handleKeypress fs scancode nextScancode machine = .ok after) :
    Guarded machine after := by
  unfold handleKeypress at finished
  dsimp only at finished
  generalize machine.keyboard.update scancode nextScancode = keyboard at finished
  have erased : ∃ console, SameSeats machine.console console ∧
      (if scancode = 0x0E then
        { machine with keyboard := keyboard, console := backspace machine.console }
      else { machine with keyboard := keyboard }) =
        { machine with keyboard := keyboard, console := console } := by
    split_ifs
    · exact ⟨_, .backspace _, rfl⟩
    · exact ⟨_, .refl _, rfl⟩
  obtain ⟨console, seats, shown⟩ := erased
  rw [shown] at finished
  have first := sound.screens keyboard seats
  generalize ready_eq : ({ machine with keyboard := keyboard, console := console } : Machine) =
    ready at *
  have current : ready.currProcess = machine.currProcess := by
    rw [← ready_eq]
  have mode : ready.cpu.userMode = false := by
    rw [← ready_eq]
    exact kernel
  refine first.trans current ?_
  split at finished
  · cases finished
    exact .refl first.sound
  · split at finished
    · cases finished
      exact first.sound.screens ready.keyboard (.clearTerminal _ _)
    · have ends (switched : Except Stop Machine)
          (guards : ∀ middle, switched = .ok middle → Guarded ready middle)
          (typed : (if keyboard.pressed scancode = 0 ∨ keyboard.alt ∨ keyboard.ctrl then switched
            else switched.map fun final => { final with
              console := typeCharacter (keyboard.pressed scancode) final.console }) = .ok after) :
          Guarded ready after := by
        split at typed
        · exact guards after typed
        · obtain ⟨middle, done, rfl⟩ := map_ok typed
          have moved := guards middle done
          have screens := moved.sound.screens middle.keyboard
            (.typeCharacter (keyboard.pressed scancode) middle.console)
          refine ⟨screens.sound, ?_⟩
          intro slot active rests
          exact (moved.spares slot active rests).trans ⟨id, ⟨_, rfl⟩, rfl, rfl⟩
      refine ends _ ?_ finished
      intro middle done
      split at done
      · cases done
        exact .refl first.sound
      · split at done
        · exact first.sound.switchTerminal mode done
        · cases done
          exact .refl first.sound

/-- Every deed is guarded. -/
theorem Sound.deed {deed : Deed} (sound : Sound machine)
    (finished : deedStep fs machine deed = .ok after) : Guarded machine after := by
  cases deed with
  | event event => exact sound.event finished
  | store page offset byte =>
      rw [deedStep] at finished
      split at finished
      · next inside =>
        split at finished
        · cases finished
        · next found =>
          cases finished
          exact sound.storePhysical inside.2.1 inside.2.2 found byte
      · cases finished
  | sysOpen filename =>
      rw [deedStep] at finished
      split_ifs at finished with mode
      cases finished
      exact sound.files (Bool.eq_false_of_not_eq_true mode) (fun pcb =>
        { pcb with fileArray := (sysOpen fs filename pcb.fileArray).2 }) ⟨_, _, rfl⟩ (.refl _)
  | sysClose fd =>
      rw [deedStep] at finished
      split_ifs at finished with mode
      obtain ⟨closed, _, rfl⟩ := map_ok finished
      exact sound.files (Bool.eq_false_of_not_eq_true mode) (fun pcb =>
        { pcb with fileArray := closed.2 }) ⟨_, _, rfl⟩ (.refl _)
  | sysRead fd buf nbytes =>
      cases buf with
      | none =>
          rw [deedStep] at finished
          split_ifs at finished with mode
          obtain ⟨read, call, rfl⟩ := map_ok finished
          exact sound.files (Bool.eq_false_of_not_eq_true mode) (fun _ => read.2.2.pcb)
            (sysRead_own call).2.1 (sysRead_seats call)
      | some buf =>
          rw [deedStep] at finished
          split_ifs at finished with mode
          dsimp only at finished
          split_ifs at finished
          obtain ⟨read, call, rfl⟩ := map_ok finished
          have called : Guarded machine (machine.afterCall read.2.2) :=
            sound.files (Bool.eq_false_of_not_eq_true mode) (fun _ => read.2.2.pcb)
              (sysRead_own call).2.1 (sysRead_seats call)
          refine called.trans rfl ?_
          rw [Machine.deliver, called.sound.programFrame]
          exact called.sound.ownPage _
  | sysWrite fd buf nbytes =>
      rw [deedStep] at finished
      split_ifs at finished with mode
      obtain ⟨written, call, rfl⟩ := map_ok finished
      obtain ⟨own, seats⟩ := sysWrite_own call
      exact sound.files (Bool.eq_false_of_not_eq_true mode) (fun _ => written.2.pcb) own seats
  | getargs buf nbytes =>
      rw [deedStep] at finished
      split_ifs at finished with mode
      obtain ⟨outcome, call, rfl⟩ := map_ok finished
      exact sound.getargs call
  | rtcInt =>
      rw [deedStep] at finished
      split_ifs at finished with mode
      cases finished
      exact sound.rtcInt
  | key scancode nextScancode =>
      rw [deedStep] at finished
      split_ifs at finished with mode
      exact sound.key (Bool.eq_false_of_not_eq_true mode) finished

end Deeds

theorem sound_boot {fs : FileSystem} {machine : Machine} {stack : BootStack} {beyond : List UInt8}
    {initial : System} (booted : boot fs machine stack beyond = .ok initial) :
    Sound initial.machine :=
  ⟨running_boot booted, (directories_boot booted).1, (tracked_boot booted).directory⟩

/-- However long the others run, whatever they call, store and type, a process that does not run
keeps its block but for the count of the clock, its page and its directory. -/
theorem suspended_undisturbed {fs : FileSystem} {cold machine final : Machine} {stack : BootStack}
    {beyond : List UInt8} {initial : System} {before deeds : List Deed} {slot : Nat}
    (booted : boot fs cold stack beyond = .ok initial)
    (reached : run (deedStep fs) initial.machine before = .ok machine)
    (active : machine.active slot = true)
    (rests : Along (fun machine _ => machine.currProcess ≠ slot + 1) (deedStep fs) machine deeds)
    (continued : run (deedStep fs) machine deeds = .ok final) :
    final.active slot = true ∧
      (∃ rtcCount, final.process (slot + 1) =
        { machine.process (slot + 1) with rtcCount := rtcCount }) ∧
      final.frames (slotFrame slot) = machine.frames (slotFrame slot) ∧
      final.pageDirectoryArray slot = machine.pageDirectoryArray slot := by
  have sound : Sound machine :=
    run_invariant Sound (fun _ _ _ sound _ finished => (sound.deed finished).sound)
      (sound_boot booted) (along_true _ _ before) reached
  have kept : Sound final ∧ final.active slot = true ∧ Spares slot machine final := by
    refine run_invariant (fun current => Sound current ∧ current.active slot = true ∧
      Spares slot machine current) ?_ ⟨sound, active, .refl slot machine⟩ rests continued
    rintro current deed next ⟨sound, active, spares⟩ rests finished
    have guarded := sound.deed finished
    have further := guarded.spares slot active rests
    exact ⟨guarded.sound, further.active active, spares.trans further⟩
  obtain ⟨_, active, spares⟩ := kept
  exact ⟨active, spares.block, spares.page, spares.directory⟩

/-- The first shell starts a child. -/
def parentDeeds : List Deed :=
  [.event (.kernelStack 0x7FD000 0x7FD000), .event (.execute (some shellName) [])]

/-- The child opens a file, reads and writes, maps the video page, and stores to its own page. -/
def childDeeds : List Deed :=
  [.event (.kernelStack 0x7FB000 0x7FB000), .sysOpen (some shellName),
    .sysRead 2 (some (mb128 + 16)) 3, .sysWrite 1 (some fun _ => 65) 1,
    .event (.vidmap mb128), .rtcInt, .key 0x1E 0,
    .event .userReturn, .store (32 * numEntries) 0 7]

theorem suspended_undisturbed_childDeeds : ∃ machine final : Machine,
    run (deedStep shellImage) machine childDeeds = .ok final ∧
      (final.frames (slotFrame 1) 16 = 0x7F ∧ final.frames (slotFrame 1) 0 = 7) ∧
        final.frames (slotFrame 0) = machine.frames (slotFrame 0) := by
  have passed : (boot shellImage coldMachine bootStack []).toOption.any (fun initial =>
      runCheck (deedStep shellImage) initial.machine parentDeeds fun machine =>
        machine.active 0 && (decide (Along (fun machine _ => machine.currProcess ≠ 0 + 1)
          (deedStep shellImage) machine childDeeds) &&
            runCheck (deedStep shellImage) machine childDeeds fun final =>
              decide (final.frames (slotFrame 1) 16 = 0x7F ∧
                final.frames (slotFrame 1) 0 = 7))) = true := by
    decide +kernel
  cases booted : boot shellImage coldMachine bootStack [] with
  | error stop =>
      rw [booted] at passed
      cases passed
  | ok initial =>
      rw [booted] at passed
      obtain ⟨machine, reached, checked⟩ := runCheck_sound passed
      rw [Bool.and_eq_true, Bool.and_eq_true] at checked
      obtain ⟨active, rests, continued⟩ := checked
      obtain ⟨final, continued, stored⟩ := runCheck_sound continued
      have spared :=
        suspended_undisturbed booted reached active (of_decide_eq_true rests) continued
      exact ⟨machine, final, continued, of_decide_eq_true stored, spared.2.2.1⟩

end ComputerSystems.Kernel
