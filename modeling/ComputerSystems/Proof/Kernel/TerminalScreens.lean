import ComputerSystems.Proof.Kernel.Screen
import ComputerSystems.Proof.Kernel.VideoMapping

namespace ComputerSystems.Kernel
open ComputerSystems.Library

/-- What happens to the screens. The last kind of event stands for all process calls. -/
inductive ScreenEvent where
  | putc (input attr : UInt8) (index : Fin 3)
  | clear (index : Fin 3)
  | switch (nextTerminalIndex : Nat)
  | processes (active : Nat → Bool) (activeProcess : Fin 3 → Int)

def screenStep (fs : FileSystem) (machine : Machine) : ScreenEvent → Except Stop Machine
  | .putc input attr index =>
      .ok { machine with console := terminalPutc input attr index machine.console }
  | .clear index => .ok { machine with console := clearTerminal index machine.console }
  | .switch next => switchTerminal fs next machine
  | .processes active activeProcess =>
      .ok { machine with
        active := active
        console := { machine.console with
          terminals := fun index =>
            { machine.console.terminals index with activeProcess := activeProcess index } } }

/-- The state that `init_terminals` sets up. No operation has set the cursor yet. -/
def freshScreens (machine : Machine) : Machine :=
  { machine with console := { initTerminals machine.console with cursor := none } }

/-- One terminal on its own screen takes only its own events. -/
def ownEvent (index : Fin 3) (screen : Screen) : ScreenEvent → Screen
  | .putc input attr target => if index = target then screen.putc input attr else screen
  | .clear target => if index = target then Screen.clear else screen
  | .switch _ => screen
  | .processes _ _ => screen

/-- The screen of one terminal before its first event. -/
def firstScreen (machine : Machine) (index : Fin 3) : Screen where
  cell := cellAt (freshScreens machine).console.video
    ((freshScreens machine).console.terminals index).videoStart
  posX := 0
  posY := 0

def privateScreen (machine : Machine) (events : List ScreenEvent) (index : Fin 3) : Screen :=
  events.foldl (ownEvent index) (firstScreen machine index)

/-- Every terminal shows its own screen in its own place. -/
structure Drawn (console : Console) (screens : Fin 3 → Screen) : Prop where
  storage : ∀ index, (console.terminals index).storageLocation = storageLocation index
  videoStart : ∀ index, (console.terminals index).videoStart =
    screenPlace console.activeTerminalIndex index
  shows : ∀ index, Shows (console.terminals index) console.video (screens index)
  cursor : ∀ place, console.cursor = some place →
    place = (screens console.activeTerminalIndex).position

/-- Two different screens are at least a page apart. -/
theorem screenPlace_apart (active : Fin 3) {first second : Fin 3} (different : first ≠ second) :
    screenPlace active first + 0x1000 ≤ screenPlace active second ∨
      screenPlace active second + 0x1000 ≤ screenPlace active first := by
  revert active first second
  decide

/-- The console after one terminal has new cells and a new position. -/
def redrawn (console : Console) (index : Fin 3) (terminal : Terminal) (video : Nat → UInt8) :
    Console :=
  let written := { console.setTerminal index terminal with video := video }
  if index = console.activeTerminalIndex then written.moveCursor terminal.posX terminal.posY
  else written

theorem redrawn_fields (console : Console) (index : Fin 3) (terminal : Terminal)
    (video : Nat → UInt8) :
    (redrawn console index terminal video).terminals =
        (console.setTerminal index terminal).terminals ∧
      (redrawn console index terminal video).activeTerminalIndex = console.activeTerminalIndex ∧
      (redrawn console index terminal video).video = video := by
  unfold redrawn
  dsimp only
  split_ifs <;> exact ⟨rfl, rfl, rfl⟩

/-- The active terminal stays active. -/
theorem terminalPutc_active (input attr : UInt8) (index : Fin 3) (console : Console) :
    (terminalPutc input attr index console).activeTerminalIndex = console.activeTerminalIndex :=
  (redrawn_fields console index (scrollScreen _ _).1 (scrollScreen _ _).2).2.1

theorem clearTerminal_active (index : Fin 3) (console : Console) :
    (clearTerminal index console).activeTerminalIndex = console.activeTerminalIndex :=
  (redrawn_fields console index { console.terminals index with posX := 0, posY := 0 } _).2.1

namespace Drawn
variable {console : Console} {screens : Fin 3 → Screen}

/-- New cells of one terminal do not show on another, and the cursor follows. -/
theorem redraw (drawn : Drawn console screens) {index : Fin 3} {posX posY : Nat}
    {video : Nat → UInt8} {screen : Screen}
    (own : Shows { console.terminals index with posX := posX, posY := posY } video screen)
    (same : SameOutside (console.terminals index).videoStart console.video video) :
    Drawn (redrawn console index { console.terminals index with posX := posX, posY := posY } video)
      (Function.update screens index screen) := by
  obtain ⟨terminals, active, cells⟩ := redrawn_fields console index
    { console.terminals index with posX := posX, posY := posY } video
  constructor
  case storage =>
    intro other
    rw [terminals, ← drawn.storage other]
    apply console.setTerminal_field Terminal.storageLocation
    rfl
  case videoStart =>
    intro other
    rw [terminals, active, ← drawn.videoStart other]
    apply console.setTerminal_field Terminal.videoStart
    rfl
  case shows =>
    intro other
    rw [terminals, cells]
    by_cases here : other = index
    · rw [here, Console.setTerminal_self, Function.update_self]
      exact own
    · rw [Console.setTerminal_of_ne _ here, Function.update_of_ne here]
      apply (drawn.shows other).elsewhere same
      rw [drawn.videoStart, drawn.videoStart]
      exact screenPlace_apart _ here
  case cursor =>
    intro place set
    rw [active]
    by_cases front : index = console.activeTerminalIndex
    · rw [redrawn, if_pos front] at set
      cases set
      rw [← front, Function.update_self]
      have row := own.posY
      have column := own.posX
      have inside := screen.position_lt
      unfold Screen.position at inside ⊢
      dsimp only at row column ⊢
      simp only [numRows, numCols] at inside ⊢
      rw [row, column]
      omega
    · rw [redrawn, if_neg front] at set
      rw [Function.update_of_ne (Ne.symm front)]
      exact drawn.cursor place set

theorem putc (drawn : Drawn console screens) (input attr : UInt8) (index : Fin 3) :
    Drawn (terminalPutc input attr index console)
      (Function.update screens index ((screens index).putc input attr)) := by
  have own := (drawn.shows index).putc input attr
  have inside := (screens index).position_lt
  rw [← (drawn.shows index).position] at inside
  have same := sameOutside_putc input attr inside console.video
  obtain ⟨posX, posY, moved⟩ :=
    putc_terminal input attr (console.terminals index) console.video
  change Drawn (redrawn console index (scrollScreen _ _).1 (scrollScreen _ _).2) _
  dsimp only at own same
  rw [moved] at own ⊢
  exact drawn.redraw own same

theorem clear (drawn : Drawn console screens) (index : Fin 3) :
    Drawn (clearTerminal index console) (Function.update screens index Screen.clear) := by
  have own := Shows.clear (console.terminals index) console.video
  have whole : 0 + numRows * numCols ≤ numRows * numCols := by decide
  have same := sameOutside_forLoop whole (fun _ _ => (32, attrib))
    (sameOutside_refl (console.terminals index).videoStart console.video)
  exact drawn.redraw own same

/-- A console with the same cells and positions shows the same screens. -/
theorem keep (drawn : Drawn console screens) {after : Console}
    (terminals : ∀ index, ∃ pid, after.terminals index =
      { console.terminals index with activeProcess := pid })
    (active : after.activeTerminalIndex = console.activeTerminalIndex)
    (video : after.video = console.video) (cursor : after.cursor = console.cursor) :
    Drawn after screens := by
  constructor
  case storage =>
    intro index
    obtain ⟨pid, same⟩ := terminals index
    rw [same]
    exact drawn.storage index
  case videoStart =>
    intro index
    obtain ⟨pid, same⟩ := terminals index
    rw [same, active]
    exact drawn.videoStart index
  case shows =>
    intro index
    obtain ⟨pid, same⟩ := terminals index
    rw [same, video]
    have shows := drawn.shows index
    exact ⟨shows.posX, shows.posY, shows.cells⟩
  case cursor =>
    rw [cursor, active]
    exact drawn.cursor

end Drawn

/-- The cells of a copied page are those of its source. -/
theorem cellAt_copyPage_target (target source : Nat) (video : Nat → UInt8) {cell : Nat}
    (inside : cell < numRows * numCols) :
    cellAt (copyPage target source video) target cell = cellAt video source cell := by
  simp only [numRows, numCols] at inside
  have low : target ≤ target + 2 * cell ∧ target + 2 * cell < target + kb4 := by
    simp only [kb4]
    omega
  have high : target ≤ target + 2 * cell + 1 ∧ target + 2 * cell + 1 < target + kb4 := by
    simp only [kb4]
    omega
  unfold cellAt copyPage
  rw [if_pos low, if_pos high, show target + 2 * cell - target = 2 * cell by omega,
    show target + 2 * cell + 1 - target = 2 * cell + 1 by omega, ← Nat.add_assoc]

/-- The copy of a page leaves the cells of every other page. -/
theorem cellAt_copyPage_apart {target place : Nat}
    (apart : target + 0x1000 ≤ place ∨ place + 0x1000 ≤ target) (source : Nat)
    (video : Nat → UInt8) {cell : Nat} (inside : cell < numRows * numCols) :
    cellAt (copyPage target source video) place cell = cellAt video place cell := by
  simp only [numRows, numCols] at inside
  have low : ¬ (target ≤ place + 2 * cell ∧ place + 2 * cell < target + kb4) := by
    simp only [kb4]
    omega
  have high : ¬ (target ≤ place + 2 * cell + 1 ∧ place + 2 * cell + 1 < target + kb4) := by
    simp only [kb4]
    omega
  unfold cellAt copyPage
  rw [if_neg low, if_neg high]

/-- The real screen and all storage pages are at least a page apart. -/
theorem storageLocation_apart (index : Fin 3) : videoBase + 0x1000 ≤ storageLocation index := by
  revert index
  decide

theorem storageLocation_separate {first second : Fin 3} (different : first ≠ second) :
    storageLocation first + 0x1000 ≤ storageLocation second ∨
      storageLocation second + 0x1000 ≤ storageLocation first := by
  revert first second
  decide

namespace Drawn
variable {console : Console} {screens : Fin 3 → Screen}

/-- The exchange of two screens moves the cells of every terminal to its new place. -/
theorem moved (drawn : Drawn console screens) {next : Fin 3}
    (hidden : next ≠ console.activeTerminalIndex) (index : Fin 3) {cell : Nat}
    (inside : cell < numRows * numCols) :
    cellAt (showTerminal next console).video (screenPlace next index) cell =
      cellAt console.video (screenPlace console.activeTerminalIndex index) cell := by
  change cellAt (copyPage videoBase (console.terminals next).storageLocation
    (copyPage (console.terminals console.activeTerminalIndex).storageLocation
      (console.terminals console.activeTerminalIndex).videoStart console.video)) _ cell = _
  rw [drawn.storage, drawn.storage, drawn.videoStart, screenPlace_self]
  by_cases shown : index = next
  · subst shown
    rw [screenPlace_self, screenPlace_of_ne hidden, cellAt_copyPage_target _ _ _ inside,
      cellAt_copyPage_apart (storageLocation_separate (Ne.symm hidden)) _ _ inside]
  · rw [screenPlace_of_ne shown,
      cellAt_copyPage_apart (.inl (storageLocation_apart index)) _ _ inside]
    by_cases old : index = console.activeTerminalIndex
    · rw [old, screenPlace_self, cellAt_copyPage_target _ _ _ inside]
    · rw [screenPlace_of_ne old,
        cellAt_copyPage_apart (storageLocation_separate (Ne.symm old)) _ _ inside]

/-- After the exchange every terminal shows the same screen in its new place. -/
theorem shown (drawn : Drawn console screens) {next : Fin 3}
    (hidden : next ≠ console.activeTerminalIndex) :
    Drawn { showTerminal next console with activeTerminalIndex := next } screens := by
  have place index := showTerminal_videoStart (drawn.storage index) (drawn.videoStart index) hidden
  constructor
  case storage =>
    intro index
    dsimp only
    rw [showTerminal_terminals hidden]
    exact drawn.storage index
  case videoStart => exact place
  case shows =>
    intro index
    have shows := drawn.shows index
    refine ⟨?_, ?_, fun cell inside => ?_⟩
    · dsimp only
      rw [showTerminal_terminals hidden]
      exact shows.posX
    · dsimp only
      rw [showTerminal_terminals hidden]
      exact shows.posY
    · dsimp only
      rw [place, drawn.moved hidden index inside, ← drawn.videoStart]
      exact shows.cells cell inside
  case cursor =>
    intro corner set
    cases set
    have inside := (screens next).position_lt
    rw [← (drawn.shows next).position] at inside ⊢
    simp only [numRows, numCols] at inside ⊢
    omega

end Drawn

/-- A switch moves the screens and changes nothing that is shown on them. -/
theorem Drawn.switch {fs : FileSystem} {next : Nat} {machine after : Machine}
    {screens : Fin 3 → Screen} (drawn : Drawn machine.console screens)
    (finished : switchTerminal fs next machine = .ok after) : Drawn after.console screens := by
  rcases switchTerminal_cases finished with ⟨_, rfl⟩ | ⟨inRange, hidden, cases⟩
  · exact drawn
  · rcases cases with ⟨occupied, rfl⟩ | ⟨vacant, ⟨full, rfl⟩ | ⟨slot, frames, free, rfl⟩⟩
    · exact drawn.shown hidden
    · exact drawn
    · have base := drawn.shown hidden
      have terminals := (switchScreens ⟨next, inRange⟩ machine).setActiveProcess_terminal
        ⟨next, inRange⟩ (slot + 1)
      exact base.keep terminals rfl rfl rfl

/-- A character advances the screen of its terminal and no other. -/
theorem ownEvent_putc (screens : Fin 3 → Screen) (input attr : UInt8) (target : Fin 3) :
    (fun index => ownEvent index (screens index) (.putc input attr target)) =
      Function.update screens target ((screens target).putc input attr) := by
  funext index
  rw [ownEvent, Function.update_apply]
  split_ifs with own
  · rw [own]
  · rfl

theorem ownEvent_clear (screens : Fin 3 → Screen) (target : Fin 3) :
    (fun index => ownEvent index (screens index) (.clear target)) =
      Function.update screens target Screen.clear := by
  funext index
  rw [ownEvent, Function.update_apply]

theorem Drawn.step {fs : FileSystem} {machine after : Machine} {event : ScreenEvent}
    {screens : Fin 3 → Screen} (drawn : Drawn machine.console screens)
    (stepped : screenStep fs machine event = .ok after) :
    Drawn after.console fun index => ownEvent index (screens index) event := by
  cases event with
  | putc input attr target =>
      cases stepped
      rw [ownEvent_putc]
      exact drawn.putc input attr target
  | clear target =>
      cases stepped
      rw [ownEvent_clear]
      exact drawn.clear target
  | switch next => exact drawn.switch stepped
  | processes active activeProcess =>
      cases stepped
      exact drawn.keep (fun _ => ⟨_, rfl⟩) rfl rfl rfl

/-- A fresh machine shows what its memory holds. -/
theorem drawn_freshScreens (machine : Machine) :
    Drawn (freshScreens machine).console (firstScreen machine) where
  storage _ := rfl
  videoStart _ := rfl
  shows _ := ⟨rfl, rfl, fun _ _ => rfl⟩
  cursor _ set := by cases set

/-- The private screens advance one by one. -/
theorem foldl_ownEvent (events : List ScreenEvent) (screens : Fin 3 → Screen) (index : Fin 3) :
    events.foldl (fun screens event index => ownEvent index (screens index) event) screens index =
      events.foldl (ownEvent index) (screens index) := by
  induction events generalizing screens with
  | nil => rfl
  | cons event rest ih => exact ih _

/-- The screens of a run advance by their own events. -/
theorem Drawn.run {fs : FileSystem} {machine final : Machine} {events : List ScreenEvent}
    {screens : Fin 3 → Screen} (drawn : Drawn machine.console screens)
    (reached : Library.run (screenStep fs) machine events = .ok final) :
    Drawn final.console fun index => events.foldl (ownEvent index) (screens index) := by
  have advanced := run_simulates (fun machine screens => Drawn machine.console screens)
    (fun screens event index => ownEvent index (screens index) event)
    (fun machine event next screens drawn stepped => drawn.step stepped) drawn reached
  have privately := funext (foldl_ownEvent events screens)
  rw [privately] at advanced
  exact advanced

/-- Output to the active terminal sets the cursor, and so does a switch to another terminal. -/
def SetsCursor (machine after : Machine) : ScreenEvent → Prop
  | .putc _ _ index => index = machine.console.activeTerminalIndex
  | .clear index => index = machine.console.activeTerminalIndex
  | .switch _ => after.console.activeTerminalIndex ≠ machine.console.activeTerminalIndex
  | .processes _ _ => False

/-- The cursor stays set. -/
theorem screenStep_cursor {fs : FileSystem} {machine after : Machine} {event : ScreenEvent}
    (stepped : screenStep fs machine event = .ok after)
    (sets : SetsCursor machine after event ∨ machine.console.cursor.isSome) :
    after.console.cursor.isSome := by
  cases event with
  | putc input attr target =>
      cases stepped
      rw [terminalPutc]
      dsimp only
      split_ifs with front
      · rfl
      · exact sets.resolve_left front
  | clear target =>
      cases stepped
      rw [clearTerminal]
      dsimp only
      split_ifs with front
      · rfl
      · exact sets.resolve_left front
  | switch next =>
      rcases switchTerminal_cases stepped with ⟨_, rfl⟩ | ⟨inRange, hidden, cases⟩
      · exact sets.resolve_left fun moved => moved rfl
      · rcases cases with ⟨occupied, rfl⟩ | ⟨vacant, ⟨full, rfl⟩ | ⟨slot, frames, free, rfl⟩⟩
        · rfl
        · exact sets.resolve_left fun moved => moved rfl
        · rfl
  | processes active activeProcess =>
      cases stepped
      exact sets.resolve_left id

/-- From the first event on that sets it, the cursor is at the position of the active terminal. -/
theorem cursor_at_active {fs : FileSystem} {machine middle next final : Machine}
    {early late : List ScreenEvent} {event : ScreenEvent}
    (reached : run (screenStep fs) (freshScreens machine) early = .ok middle)
    (stepped : screenStep fs middle event = .ok next) (sets : SetsCursor middle next event)
    (continued : run (screenStep fs) next late = .ok final) :
    final.console.cursor =
      some (numCols * (final.console.terminals final.console.activeTerminalIndex).posY +
        (final.console.terminals final.console.activeTerminalIndex).posX) := by
  have set : final.console.cursor.isSome := run_invariant
    (fun machine => machine.console.cursor.isSome)
    (fun _ _ _ set _ stepped => screenStep_cursor stepped (.inr set))
    (screenStep_cursor stepped (.inl sets)) (along_true _ _ late) continued
  obtain ⟨place, found⟩ := Option.isSome_iff_exists.1 set
  have drawn := (((drawn_freshScreens machine).run reached).step stepped).run continued
  rw [found, (drawn.shows _).position]
  exact congrArg some (drawn.cursor place found)

/-- In every run every terminal shows its private screen in its own place, and the cursor is at
the position of the active terminal once it is set. -/
theorem terminals_virtualised {fs : FileSystem} {machine final : Machine}
    {events : List ScreenEvent}
    (reached : run (screenStep fs) (freshScreens machine) events = .ok final) :
    (∀ index, ∀ cell < numRows * numCols,
      cellAt final.console.video (final.console.terminals index).videoStart cell =
        (privateScreen machine events index).cell cell) ∧
    (∀ index, (final.console.terminals index).videoStart = videoBase ↔
      index = final.console.activeTerminalIndex) ∧
    (∀ index, index ≠ final.console.activeTerminalIndex →
      (final.console.terminals index).videoStart =
        (final.console.terminals index).storageLocation) ∧
    ∀ place, final.console.cursor = some place →
      place = numCols * (final.console.terminals final.console.activeTerminalIndex).posY +
        (final.console.terminals final.console.activeTerminalIndex).posX := by
  have drawn := (drawn_freshScreens machine).run reached
  refine ⟨fun index cell inside => ?_, fun index => ?_, fun index hidden => ?_,
    fun place set => ?_⟩
  · rw [(drawn.shows index).cells cell inside]
    rfl
  · rw [drawn.videoStart]
    constructor
    · intro front
      by_contra hidden
      have apart := storageLocation_apart index
      rw [screenPlace_of_ne hidden] at front
      omega
    · rintro rfl
      exact screenPlace_self _
  · rw [drawn.videoStart, drawn.storage, screenPlace_of_ne hidden]
  · rw [(drawn.shows _).position]
    exact drawn.cursor place set

/-- Output to two terminals around a switch to an empty terminal, one to an occupied terminal,
and one that finds no free slot. -/
def screenEvents : List ScreenEvent :=
  [.putc 65 attrib 0, .putc 66 attrib 1, .switch 1, .putc 67 attrib 0, .clear 1,
    .processes (fun _ => true) (fun index => if index = 2 then -1 else 1), .switch 2, .switch 0]

theorem terminals_virtualised_screenEvents :
    ∃ final, run (screenStep shellImage) (freshScreens coldMachine) screenEvents = .ok final ∧
      cellAt final.console.video (final.console.terminals 0).videoStart 1 =
        (privateScreen coldMachine screenEvents 0).cell 1 ∧
      (privateScreen coldMachine screenEvents 0).cell 1 = (67, attrib) := by
  have passed : runCheck (screenStep shellImage) (freshScreens coldMachine) screenEvents
      (fun _ => true) = true := by
    decide +kernel
  obtain ⟨final, reached, _⟩ := runCheck_sound passed
  exact ⟨final, reached, (terminals_virtualised reached).1 0 1 (by decide), by decide +kernel⟩

end ComputerSystems.Kernel
