import ComputerSystems.Proof.Kernel.KeyboardLayout
import ComputerSystems.Proof.Kernel.TerminalPage

namespace ComputerSystems.Kernel
open ComputerSystems.Library

/-- A code of a key that is no control or alt key. -/
structure PlainCode where
  scancode : UInt8
  nextScancode : UInt8
  plain : scancode ∉ [0x1D, 0x38, 0xE0]

/-- A machine and whether its active screen has scrolled. -/
structure EchoState where
  machine : Machine
  scrolled : Bool

/-- Whether an accepted character scrolls the active screen. -/
def scrolls (character : UInt8) (console : Console) : Bool :=
  let terminal := console.terminals console.activeTerminalIndex
  accepts character terminal &&
    numRows ≤ (placeCharacter character attrib terminal console.video).1.posY

def echoStep (fs : FileSystem) (state : EchoState) (code : PlainCode) :
    Except Stop EchoState :=
  let keyboard := state.machine.keyboard.update code.scancode code.nextScancode
  let scrolled :=
    match keyboard.character code.scancode with
    | none => false
    | some character => scrolls character state.machine.console
  (handleKeypress fs code.scancode code.nextScancode state.machine).map fun after =>
    ⟨after, state.scrolled || scrolled⟩

/-- The active terminal is cleared. -/
def clearedState (machine : Machine) : EchoState where
  machine := { machine with
    console := clearTerminal machine.console.activeTerminalIndex machine.console }
  scrolled := false

namespace Console

/-- The characters in the buffer of the active terminal. -/
def line (console : Console) : List UInt8 :=
  (console.terminals console.activeTerminalIndex).contents

/-- The active terminal is cleared, and its input is printed again. -/
def reprinted (console : Console) : Console :=
  console.line.foldl
    (fun current character => terminalPutc character attrib console.activeTerminalIndex current)
    (clearTerminal console.activeTerminalIndex console)

end Console

/-- The cells and the cursor of the active terminal are those of its input printed again. -/
structure Echoed (console : Console) : Prop where
  posX : (console.terminals console.activeTerminalIndex).posX =
    (console.reprinted.terminals console.activeTerminalIndex).posX
  posY : (console.terminals console.activeTerminalIndex).posY =
    (console.reprinted.terminals console.activeTerminalIndex).posY
  cursor : console.cursor = console.reprinted.cursor
  cells : ∀ cell < numRows * numCols,
    cellAt console.video (console.terminals console.activeTerminalIndex).videoStart cell =
      cellAt console.reprinted.video
        (console.reprinted.terminals console.activeTerminalIndex).videoStart cell

/-- The characters that end a line of the screen. -/
def feeds (character : UInt8) : Bool := character == 10 || character == 13

theorem feeds_iff {character : UInt8} :
    feeds character = true ↔ character = 10 ∨ character = 13 := by
  rw [feeds, Bool.or_eq_true, beq_iff_eq, beq_iff_eq]

/-- The length of the last line. -/
def lastLine (text : List UInt8) : Nat :=
  (text.reverse.takeWhile fun character => !feeds character).length

/-- The last character ends a line that does not reach the last column of the screen. -/
def endsShort (text : List UInt8) : Bool :=
  text.getLast?.any feeds && lastLine text.dropLast % numCols != numCols - 1

/-- A backspace deletes the end of a line that does not reach the last column. -/
def DeletesShort (state : EchoState) (code : PlainCode) : Prop :=
  state.scrolled = false ∧ code.scancode = 0x0E ∧
    endsShort state.machine.console.line = true

instance (state : EchoState) (code : PlainCode) : Decidable (DeletesShort state code) :=
  inferInstanceAs (Decidable (_ ∧ _ ∧ _))

namespace Screen

/-- A backspace moves back by one cell and clears it. -/
def erase (screen : Screen) : Screen :=
  if screen.posX = 0 then
    let moved : Screen :=
      { screen with posX := Fin.last 79, posY := ⟨screen.posY - 1, by omega⟩ }
    moved.write (32, attrib)
  else
    let moved : Screen := { screen with posX := ⟨screen.posX - 1, by omega⟩ }
    moved.write (32, attrib)

theorem write_write (screen : Screen) (first second : UInt8 × UInt8) :
    (screen.write first).write second = screen.write second := by
  apply Screen.ext
  case cell => exact Function.update_idem (β := fun _ => UInt8 × UInt8) first second screen.cell
  case posX => rfl
  case posY => rfl

theorem write_self {screen : Screen} {value : UInt8 × UInt8}
    (same : screen.cell screen.position = value) : screen.write value = screen := by
  unfold write
  rw [← same, Function.update_eq_self]

theorem erase_newline {screen : Screen} (inside : screen.posY.val + 1 < numRows) :
    screen.newline.erase = { screen with posX := Fin.last 79 : Screen }.write (32, attrib) := by
  unfold newline erase
  rw [dif_pos inside, if_pos rfl]
  rfl

/-- A backspace after a character clears the cell of the character. -/
theorem erase_putc {screen : Screen} {character attr : UInt8}
    (quiet : ¬feeds character = true)
    (inside : screen.posX.val + 1 < numCols ∨ screen.posY.val + 1 < numRows) :
    (screen.putc character attr).erase = screen.write (32, attrib) := by
  unfold putc
  rw [if_neg (mt feeds_iff.2 quiet)]
  by_cases column : screen.posX.val + 1 < numCols
  · have moved : (⟨screen.posX + 1, column⟩ : Fin numCols) ≠ 0 :=
      fun same => Nat.succ_ne_zero _ (congrArg Fin.val same)
    rw [dif_pos column, erase, if_neg moved]
    exact write_write screen (character, attr) (32, attrib)
  · rw [dif_neg column]
    have row : (screen.write (character, attr)).posY.val + 1 < numRows :=
      inside.resolve_left column
    have last : screen.posX = Fin.last 79 := by
      apply Fin.ext
      have bound := screen.posX.isLt
      simp only [numCols, Fin.val_last] at *
      omega
    rw [erase_newline row, ← last]
    exact write_write screen (character, attr) (32, attrib)

/-- The screen after a text on an empty one. -/
def ofText (text : List UInt8) : Screen :=
  text.foldl (fun screen character => screen.putc character attrib) clear

end Screen

namespace Page
variable {character attr : UInt8} {page : Page}

theorem putc_feed (feed : feeds character = true) : page.putc character attr = page.newline :=
  if_pos (feeds_iff.1 feed)

/-- A character moves the cursor in its row or to the next one. -/
theorem putc_column (quiet : ¬feeds character = true) :
    (page.putc character attr).column.val = (page.column + 1) % numCols := by
  have column := page.column.isLt
  unfold putc
  rw [if_neg (mt feeds_iff.2 quiet)]
  split
  · next inside => exact (Nat.mod_eq_of_lt inside).symm
  · next last =>
    have full : page.column.val + 1 = numCols := by omega
    rw [full, Nat.mod_self]
    rfl

theorem row_le_putc : page.row ≤ (page.putc character attr).row := by
  unfold putc
  split_ifs
  · exact Nat.le_succ page.row
  · exact le_rfl
  · exact Nat.le_succ page.row

/-- Nothing is written from the cursor on. -/
def Blank (page : Page) : Prop :=
  ∀ place, page.column.val ≤ place → page.cell page.row place = (32, attrib)

theorem Blank.putc (blank : page.Blank) (character attr : UInt8) :
    (page.putc character attr).Blank := by
  intro place right
  have fresh (value : UInt8 × UInt8) : (page.write value).newline.cell
      (page.write value).newline.row place = (32, attrib) :=
    (page.write value).below _ place (Nat.lt_succ_self page.row)
  unfold Page.putc at right ⊢
  split_ifs at right ⊢ with feed inside
  · exact page.below _ place (Nat.lt_succ_self page.row)
  · change page.column + 1 ≤ place at right
    change (if page.row = page.row ∧ place = page.column then _ else page.cell page.row place) = _
    rw [if_neg (by omega)]
    exact blank place (by omega)
  · exact fresh (character, attr)

/-- The page after a text on an empty one. -/
def ofText (text : List UInt8) : Page :=
  text.foldl (fun page character => page.putc character attrib) clear

theorem ofText_append (text : List UInt8) (character : UInt8) :
    ofText (text ++ [character]) = (ofText text).putc character attrib := by
  rw [ofText, List.foldl_append]
  rfl

theorem blank_ofText (text : List UInt8) : (ofText text).Blank := by
  induction text using List.reverseRecOn with
  | nil => exact fun _ _ => rfl
  | append_singleton text character inductionHypothesis =>
      rw [ofText_append]
      exact inductionHypothesis.putc character attrib

theorem window_ofText (text : List UInt8) : (ofText text).window = Screen.ofText text := by
  induction text using List.reverseRecOn with
  | nil => exact window_clear
  | append_singleton text character inductionHypothesis =>
      rw [ofText_append, window_putc, inductionHypothesis, Screen.ofText, Screen.ofText,
        List.foldl_append]
      rfl

theorem row_dropLast (text : List UInt8) : (ofText text.dropLast).row ≤ (ofText text).row := by
  rcases List.eq_nil_or_concat text with rfl | ⟨front, last, rfl⟩
  · exact le_rfl
  · rw [List.concat_eq_append, List.dropLast_concat, ofText_append]
    exact row_le_putc

/-- The column depends on the last line alone. -/
theorem column_ofText (text : List UInt8) :
    (ofText text).column.val = lastLine text % numCols := by
  induction text using List.reverseRecOn with
  | nil => rfl
  | append_singleton text character inductionHypothesis =>
      rw [ofText_append, lastLine, List.reverse_concat, List.takeWhile_cons]
      by_cases feed : feeds character = true
      · rw [putc_feed feed, feed]
        rfl
      · rw [putc_column feed, inductionHypothesis, Nat.mod_add_mod]
        rw [Bool.not_eq_true] at feed
        rw [feed, Bool.not_false, if_pos rfl, List.length_cons, lastLine]

/-- The window does not move before the first scroll. -/
theorem window_row (fits : page.row < numRows) : page.window.posY.val = page.row := by
  change page.row - page.top = page.row
  unfold top
  omega

theorem position_newline_pos (page : Page) : 0 < page.newline.window.position := by
  change 0 < numCols * (page.row + 1 - (page.row + 1 - (numRows - 1))) + 0
  dsimp only [numCols, numRows]
  omega

/-- The first cell is never after a character. -/
theorem position_putc_pos (page : Page) (character attr : UInt8) :
    0 < (page.putc character attr).window.position := by
  unfold putc
  split_ifs with feed inside
  · exact page.position_newline_pos
  · exact Nat.lt_of_lt_of_le (Nat.succ_pos page.column) (Nat.le_add_left _ _)
  · exact (page.write (character, attr)).position_newline_pos

/-- Without a scroll a backspace undoes a character, but after a line feed it goes to the last
column. -/
theorem erase_putc (blank : page.Blank) (fits : (page.putc character attr).row < numRows) :
    (page.putc character attr).window.erase =
      if feeds character then { page.window with posX := Fin.last 79 } else page.window := by
  have low : page.row < numRows := row_le_putc.trans_lt fits
  have top : page.top = 0 := by
    unfold top
    omega
  have clean (place : Fin numCols) (right : page.column.val ≤ place) :
      page.window.cell (numCols * page.row + place) = (32, attrib) := by
    have column := place.isLt
    change page.cell (page.top + (numCols * page.row + place) / numCols)
      ((numCols * page.row + place) % numCols) = _
    rw [top, Nat.mul_add_div (by decide), Nat.div_eq_of_lt column, Nat.mul_add_mod,
      Nat.mod_eq_of_lt column, Nat.add_zero, Nat.zero_add]
    exact blank place right
  have row := window_row low
  rw [window_putc]
  by_cases feed : feeds character = true
  · rw [if_pos feed]
    rw [putc_feed feed] at fits
    change page.row + 1 < numRows at fits
    have down : page.window.posY.val + 1 < numRows := by rwa [row]
    rw [Screen.putc, if_pos (feeds_iff.1 feed), Screen.erase_newline down]
    apply Screen.write_self
    change page.window.cell (numCols * page.window.posY.val + _) = _
    rw [row]
    exact clean (Fin.last 79) (Nat.le_of_lt_succ page.column.isLt)
  · rw [if_neg feed, Screen.erase_putc feed]
    · apply Screen.write_self
      change page.window.cell (numCols * page.window.posY.val + page.column.val) = _
      rw [row]
      exact clean page.column le_rfl
    · rw [row]
      unfold putc at fits
      rw [if_neg (mt feeds_iff.2 feed)] at fits
      by_cases inside : page.column.val + 1 < numCols
      · exact .inl inside
      · rw [dif_neg inside] at fits
        exact .inr fits

end Page

/-- The active terminal shows a screen, and the cursor is at its position. -/
structure Front (console : Console) (screen : Screen) : Prop where
  shows : Shows (console.terminals console.activeTerminalIndex) console.video screen
  cursor : console.cursor = some screen.position

/-- A backspace on the terminal is one on its screen, below the first cell. -/
theorem Shows.erase {terminal : Terminal} {video : Nat → UInt8} {screen : Screen}
    (shows : Shows terminal video screen) :
    let moved :=
      if terminal.posX = 0 then
        { terminal with posY := terminal.posY - 1, posX := numCols - 1 }
      else { terminal with posX := terminal.posX - 1 }
    Shows moved (storeCell moved.videoStart (numCols * moved.posY + moved.posX) 32 attrib video)
      screen.erase := by
  have column := shows.posX
  have row := shows.posY
  unfold Screen.erase
  by_cases first : terminal.posX = 0
  · have edge : screen.posX = 0 := Fin.ext (column.symm.trans first)
    rw [if_pos first, if_pos edge]
    apply Shows.write
    exact ⟨rfl, congrArg (· - 1) row, shows.cells⟩
  · have inner : screen.posX ≠ 0 := by
      rintro edge
      rw [edge] at column
      exact first column
    rw [if_neg first, if_neg inner]
    apply Shows.write
    exact ⟨congrArg (· - 1) column, row, shows.cells⟩

namespace Front
variable {console : Console} {screen : Screen}

/-- The screen and the cursor of a redrawn active terminal. -/
theorem redrawn {terminal : Terminal} {video : Nat → UInt8}
    (shows : Shows terminal video screen) :
    Front (redrawn console console.activeTerminalIndex terminal video) screen := by
  obtain ⟨terminals, active, cells⟩ :=
    redrawn_fields console console.activeTerminalIndex terminal video
  constructor
  · rw [terminals, active, cells, Console.setTerminal_self]
    exact shows
  · unfold Kernel.redrawn
    rw [if_pos rfl]
    have inside := screen.position_lt
    rw [← shows.position] at inside ⊢
    simp only [numRows, numCols] at inside
    unfold Console.moveCursor
    dsimp only [numCols]
    rw [Nat.mod_eq_of_lt (by omega), Nat.mul_comm]

theorem clear (console : Console) :
    Front (clearTerminal console.activeTerminalIndex console) Screen.clear :=
  redrawn (Shows.clear _ console.video)

theorem putc (front : Front console screen) (input attr : UInt8) :
    Front (terminalPutc input attr console.activeTerminalIndex console)
      (screen.putc input attr) :=
  redrawn (front.shows.putc input attr)

/-- A backspace moves back if the buffer is not empty and the screen neither. -/
theorem backspace (front : Front console screen)
    (waiting : (console.terminals console.activeTerminalIndex).charsInBuffer ≠ 0)
    (below : screen.position ≠ 0) : Front (backspace console) screen.erase := by
  have corner : ¬((console.terminals console.activeTerminalIndex).posX = 0 ∧
      (console.terminals console.activeTerminalIndex).posY = 0) := by
    rintro ⟨first, top⟩
    rw [← front.shows.position, first, top] at below
    exact below rfl
  have dropped : Shows (dropLast (console.terminals console.activeTerminalIndex)) console.video
      screen := ⟨front.shows.posX, front.shows.posY, front.shows.cells⟩
  have erased : Front (Kernel.redrawn console _ _ _) _ := redrawn dropped.erase
  unfold Kernel.redrawn at erased
  rw [if_pos rfl] at erased
  unfold Kernel.backspace
  rw [if_neg waiting, if_neg corner]
  exact erased

/-- The buffer is no part of the screen. -/
theorem store (front : Front console screen) (character : UInt8) :
    Front (console.setTerminal console.activeTerminalIndex
      (storeCharacter character (console.terminals console.activeTerminalIndex))) screen := by
  constructor
  · change Shows ((console.setTerminal _ _).terminals console.activeTerminalIndex) _ screen
    rw [Console.setTerminal_self]
    exact ⟨front.shows.posX, front.shows.posY, front.shows.cells⟩
  · exact front.cursor

end Front

/-- The active terminal stays active. -/
theorem backspace_active (console : Console) :
    (backspace console).activeTerminalIndex = console.activeTerminalIndex := by
  unfold backspace
  dsimp only
  split_ifs <;> rfl

theorem typeCharacter_active (character : UInt8) (console : Console) :
    (typeCharacter character console).activeTerminalIndex = console.activeTerminalIndex := by
  unfold typeCharacter
  dsimp only
  split
  · exact terminalPutc_active character attrib _ console
  · rfl

/-- The characters of a text appear on the screen one after the other. -/
theorem Front.run {console : Console} {screen : Screen} {index : Fin 3}
    (front : Front console screen) (active : console.activeTerminalIndex = index)
    (text : List UInt8) :
    let after := text.foldl (fun current character => terminalPutc character attrib index current)
      console
    Front after (text.foldl (fun screen character => screen.putc character attrib) screen) ∧
      after.activeTerminalIndex = index := by
  induction text generalizing console screen with
  | nil => exact ⟨front, active⟩
  | cons character rest inductionHypothesis =>
      rw [← active] at inductionHypothesis ⊢
      exact inductionHypothesis (front.putc character attrib)
        (terminalPutc_active character attrib _ console)

/-- The input is echoed when the active terminal shows it. -/
theorem echoed_iff (console : Console) :
    Echoed console ↔ Front console (Screen.ofText console.line) := by
  obtain ⟨printed, active⟩ := (Front.clear console).run
    (clearTerminal_active console.activeTerminalIndex console) console.line
  change Front console.reprinted (Screen.ofText console.line) at printed
  change console.reprinted.activeTerminalIndex = _ at active
  have shows := printed.shows
  rw [active] at shows
  constructor
  · rintro ⟨posX, posY, cursor, cells⟩
    refine ⟨⟨posX.trans shows.posX, posY.trans shows.posY, fun cell inside => ?_⟩,
      cursor.trans printed.cursor⟩
    rw [cells cell inside, shows.cells cell inside]
  · rintro ⟨own, cursor⟩
    refine ⟨own.posX.trans shows.posX.symm, own.posY.trans shows.posY.symm,
      cursor.trans printed.cursor.symm, fun cell inside => ?_⟩
    rw [own.cells cell inside, shows.cells cell inside]

/-- A backspace takes the last character of the line. -/
theorem line_backspace (console : Console) : (backspace console).line = console.line.dropLast := by
  unfold Console.line
  rw [backspace_active]
  by_cases empty : (console.terminals console.activeTerminalIndex).charsInBuffer = 0
  · have none : (console.terminals console.activeTerminalIndex).contents = [] :=
      List.eq_nil_of_length_eq_zero ((Terminal.contents_length _).trans empty)
    rw [backspace_empty empty, none, List.dropLast_nil]
  · obtain ⟨posX, posY, terminals⟩ := backspace_terminals empty
    rw [terminals, Console.setTerminal_self]
    exact Terminal.contents_dropLast _

theorem line_typeCharacter (character : UInt8) (console : Console) :
    (typeCharacter character console).line = console.line ++
      if accepts character (console.terminals console.activeTerminalIndex) then [character]
      else [] := by
  unfold Console.line
  rw [typeCharacter_active]
  exact typeCharacter_contents character console

/-- A plain code keeps the control and alt keys up. -/
theorem update_plain {keyboard : Keyboard} (code : PlainCode) (noAlt : keyboard.alt = false)
    (noCtrl : keyboard.ctrl = false) :
    (keyboard.update code.scancode code.nextScancode).alt = false ∧
      (keyboard.update code.scancode code.nextScancode).ctrl = false := by
  have plain := code.plain
  simp only [List.mem_cons, List.not_mem_nil, or_false, not_or] at plain
  unfold Keyboard.alt Keyboard.ctrl at *
  rw [Bool.or_eq_false_iff] at noAlt noCtrl
  rw [update_eq]
  simp [plain, noAlt, noCtrl]

/-- The console after a plain code. -/
def pressPlain (code : PlainCode) (keyboard : Keyboard) (console : Console) : Console :=
  if code.scancode = 0x0E then backspace console
  else
    match (keyboard.update code.scancode code.nextScancode).character code.scancode with
    | none => console
    | some character => typeCharacter character console

theorem echoStep_eq {fs : FileSystem} {state : EchoState} (code : PlainCode)
    (noAlt : state.machine.keyboard.alt = false) (noCtrl : state.machine.keyboard.ctrl = false) :
    ∃ next, echoStep fs state code = .ok next ∧
      next.machine.keyboard = state.machine.keyboard.update code.scancode code.nextScancode ∧
      next.machine.console = pressPlain code state.machine.keyboard state.machine.console ∧
      next.scrolled = (state.scrolled ||
        match (state.machine.keyboard.update code.scancode code.nextScancode).character
            code.scancode with
        | none => false
        | some character => scrolls character state.machine.console) := by
  have kept := update_plain code noAlt noCtrl
  unfold echoStep
  rw [handleKeypress_plain fs kept.1 kept.2]
  exact ⟨_, rfl, rfl, rfl, rfl⟩

/-- No command key is held, and without a scroll the input fits on the screen. -/
structure Echoing (state : EchoState) : Prop where
  noAlt : state.machine.keyboard.alt = false
  noCtrl : state.machine.keyboard.ctrl = false
  fits : state.scrolled = false → (Page.ofText state.machine.console.line).row < numRows

/-- The first part of `terminal_putc` goes to the row of the page. -/
theorem placeCharacter_posY {terminal : Terminal} {page : Page} {character attr : UInt8}
    {video : Nat → UInt8} (column : terminal.posX = page.column) (row : terminal.posY = page.row) :
    (placeCharacter character attr terminal video).1.posY = (page.putc character attr).row := by
  unfold placeCharacter Page.putc
  rw [column, row]
  by_cases feed : character = 10 ∨ character = 13
  · rw [if_pos feed, if_pos feed]
    rfl
  · rw [if_neg feed, if_neg feed]
    by_cases inside : page.column.val + 1 < numCols
    · rw [if_neg (Nat.not_le.2 inside), dif_pos inside]
      rfl
    · rw [if_pos (Nat.not_lt.1 inside), dif_neg inside]
      rfl

section
variable {console : Console} {character : UInt8}

/-- An accepted character scrolls when its row is below the screen. -/
theorem scrolls_iff (front : Front console (Screen.ofText console.line))
    (room : accepts character (console.terminals console.activeTerminalIndex) = true)
    (fits : (Page.ofText console.line).row < numRows) :
    scrolls character console = false ↔
      (Page.ofText (console.line ++ [character])).row < numRows := by
  have row := front.shows.posY
  have column := front.shows.posX
  rw [← Page.window_ofText] at row column
  rw [Page.ofText_append]
  have placed : (placeCharacter character attrib (console.terminals console.activeTerminalIndex)
      console.video).1.posY = ((Page.ofText console.line).putc character attrib).row := by
    apply placeCharacter_posY column
    rw [row]
    exact Page.window_row fits
  unfold scrolls
  dsimp only
  rw [room, Bool.true_and, placed, decide_eq_false_iff_not, Nat.not_le]

theorem front_type (front : Front console (Screen.ofText console.line)) (character : UInt8) :
    Front (typeCharacter character console)
      (Screen.ofText (typeCharacter character console).line) := by
  rw [line_typeCharacter]
  unfold typeCharacter
  dsimp only
  split
  · rw [← Page.window_ofText, Page.ofText_append, Page.window_putc, Page.window_ofText]
    have stored := (front.putc character attrib).store character
    rw [terminalPutc_active] at stored
    exact stored
  · rw [List.append_nil]
    exact front

/-- A backspace keeps the echo right unless it deletes the end of a short line. -/
theorem front_backspace_iff (front : Front console (Screen.ofText console.line))
    (fits : (Page.ofText console.line).row < numRows) :
    Front (backspace console) (Screen.ofText (backspace console).line) ↔
      endsShort console.line = false := by
  have length : console.line.length =
      (console.terminals console.activeTerminalIndex).charsInBuffer := Terminal.contents_length _
  rw [line_backspace]
  rcases List.eq_nil_or_concat console.line with none | ⟨text, last, line⟩
  · rw [none] at front length ⊢
    rw [backspace_empty length.symm]
    exact iff_of_true front rfl
  · rw [List.concat_eq_append] at line
    rw [line, ← Page.window_ofText, Page.ofText_append] at front
    rw [line, Page.ofText_append] at fits
    rw [line, List.length_append] at length
    have waiting : (console.terminals console.activeTerminalIndex).charsInBuffer ≠ 0 := by
      rw [← length]
      exact Nat.succ_ne_zero _
    have erased := front.backspace waiting (Page.position_putc_pos _ _ _).ne'
    rw [Page.erase_putc (Page.blank_ofText text) fits] at erased
    rw [line, List.dropLast_concat, ← Page.window_ofText, endsShort, List.getLast?_concat,
      List.dropLast_concat, Option.any_some, ← Page.column_ofText]
    by_cases feed : feeds last = true
    · rw [if_pos feed] at erased
      rw [feed, Bool.true_and, bne_eq_false_iff_eq]
      constructor
      · intro shown
        exact shown.shows.posX.symm.trans erased.shows.posX
      · intro full
        have same : (Page.ofText text).column = Fin.last 79 := Fin.ext full
        have screen : { (Page.ofText text).window with posX := Fin.last 79 } =
            (Page.ofText text).window := by
          rw [← same]
          rfl
        rw [screen] at erased
        exact erased
    · rw [if_neg feed] at erased
      rw [Bool.not_eq_true] at feed
      rw [feed, Bool.false_and]
      exact iff_of_true erased rfl

end

/-- While the echo is right, the input of an unscrolled screen fits on it. -/
theorem Echoing.step {fs : FileSystem} {state next : EchoState} {code : PlainCode}
    (echoing : Echoing state)
    (right : state.scrolled = false → Echoed state.machine.console)
    (stepped : echoStep fs state code = .ok next) : Echoing next := by
  obtain ⟨after, reached, keyboard, console, scrolled⟩ :=
    @echoStep_eq fs state code echoing.noAlt echoing.noCtrl
  rw [reached] at stepped
  cases stepped
  have kept := update_plain code echoing.noAlt echoing.noCtrl
  refine ⟨by rw [keyboard]; exact kept.1, by rw [keyboard]; exact kept.2, fun still => ?_⟩
  rw [scrolled, Bool.or_eq_false_iff] at still
  have fits := echoing.fits still.1
  have front := (echoed_iff _).1 (right still.1)
  rw [console]
  unfold pressPlain
  split
  · rw [line_backspace]
    exact (Page.row_dropLast _).trans_lt fits
  · split
    · exact fits
    · next character yields =>
      rw [yields] at still
      rw [line_typeCharacter]
      split
      · next room => exact (scrolls_iff front room fits).1 still.2
      · rw [List.append_nil]
        exact fits

theorem character_backspace (keyboard : Keyboard) : keyboard.character 0x0E = none :=
  if_pos (.inr (.inl (pressed_backspace keyboard)))

/-- A step of a right echo is right again unless it deletes the end of a short line. -/
theorem Echoing.exact {fs : FileSystem} {state : EchoState} {code : PlainCode}
    (echoing : Echoing state)
    (right : state.scrolled = false → Echoed state.machine.console) :
    ¬DeletesShort state code ↔ ∀ next, echoStep fs state code = .ok next →
      next.scrolled = false → Echoed next.machine.console := by
  obtain ⟨after, reached, _, console, scrolled⟩ :=
    @echoStep_eq fs state code echoing.noAlt echoing.noCtrl
  constructor
  · intro safe next stepped still
    rw [reached] at stepped
    cases stepped
    rw [scrolled, Bool.or_eq_false_iff] at still
    have fits := echoing.fits still.1
    have front := (echoed_iff _).1 (right still.1)
    rw [echoed_iff, console]
    unfold pressPlain
    split
    · next key =>
      rw [front_backspace_iff front fits, ← Bool.not_eq_true]
      exact fun short => safe ⟨still.1, key, short⟩
    · split
      · exact front
      · next character yields => exact front_type front character
  · rintro all ⟨still, key, short⟩
    have unscrolled : after.scrolled = false := by
      rw [scrolled, still, key, character_backspace]
      rfl
    have front := (echoed_iff _).1 (right still)
    have echoed := (echoed_iff _).1 (all after reached unscrolled)
    rw [console, pressPlain, if_pos key, front_backspace_iff front (echoing.fits still),
      short] at echoed
    cases echoed

/-- From a cleared terminal with an empty buffer, in every run of character keys and backspaces the
echo agrees with the buffer until the first scroll if and only if no backspace deletes the end of
a line that does not reach the last column. -/
theorem echo_agrees_iff {machine : Machine} (fs : FileSystem)
    (empty : (machine.console.terminals machine.console.activeTerminalIndex).charsInBuffer = 0)
    (noAlt : machine.keyboard.alt = false) (noCtrl : machine.keyboard.ctrl = false)
    (codes : List PlainCode) :
    Always (fun state => state.scrolled = false → Echoed state.machine.console) (echoStep fs)
        (clearedState machine) codes ↔
      Along (fun state code => ¬DeletesShort state code) (echoStep fs) (clearedState machine)
        codes := by
  have active := clearTerminal_active machine.console.activeTerminalIndex machine.console
  have same : SameInput machine.console (clearedState machine).machine.console :=
    sameInput_redrawn machine.console machine.console.activeTerminalIndex 0 0 _
  have line : (clearedState machine).machine.console.line = [] := by
    apply List.eq_nil_of_length_eq_zero
    rw [Console.line, Terminal.contents_length, (same _).2]
    exact (congrArg (fun index => (machine.console.terminals index).charsInBuffer) active).trans
      empty
  apply always_iff_along_while Echoing
  · exact fun state code next echoing right stepped _ => echoing.step right stepped
  · exact fun state code echoing right => echoing.exact right
  · refine ⟨noAlt, noCtrl, fun _ => ?_⟩
    rw [line]
    decide
  · intro _
    rw [echoed_iff, line]
    exact Front.clear machine.console

/-- A line up to the last column, its end, and a backspace that deletes the end again. -/
def longCodes : List PlainCode :=
  List.replicate 79 ⟨0x1E, 0, by decide⟩ ++ [⟨0x1C, 0, by decide⟩, ⟨0x0E, 0, by decide⟩]

theorem echo_agrees_longCodes :
    Always (fun state => state.scrolled = false → Echoed state.machine.console)
      (echoStep shellImage) (clearedState coldMachine) longCodes :=
  (echo_agrees_iff shellImage rfl rfl rfl longCodes).2 (by decide +kernel)

/-- A letter, its line feed, and a backspace. -/
def shortCodes : List PlainCode :=
  [⟨0x1E, 0, by decide⟩, ⟨0x1C, 0, by decide⟩, ⟨0x0E, 0, by decide⟩]

/-- The backspace leaves the cursor at the end of the row and not after the letter. -/
theorem echo_shortCodes_fails :
    ¬Always (fun state => state.scrolled = false → Echoed state.machine.console)
      (echoStep shellImage) (clearedState coldMachine) shortCodes := by
  intro always
  have passed : runCheck (echoStep shellImage) (clearedState coldMachine) shortCodes
      (fun state =>
        let console := state.machine.console
        !state.scrolled && (console.terminals console.activeTerminalIndex).posX !=
          (console.reprinted.terminals console.activeTerminalIndex).posX) = true := by
    decide +kernel
  obtain ⟨final, reached, checked⟩ := runCheck_sound passed
  rw [Bool.and_eq_true, Bool.not_eq_true', bne_iff_ne] at checked
  rw [always_iff_reached] at always
  exact checked.2 (always shortCodes final (List.prefix_refl shortCodes) reached checked.1).posX

end ComputerSystems.Kernel
