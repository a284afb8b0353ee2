import ComputerSystems.Construction.Kernel.Terminal

namespace ComputerSystems.Kernel
open ComputerSystems.Library

/-- A screen on its own, with a position that is always inside. -/
structure Screen where
  cell : Nat → UInt8 × UInt8
  posX : Fin numCols
  posY : Fin numRows

namespace Screen

/-- The number of the cell at the position. -/
def position (screen : Screen) : Nat := numCols * screen.posY + screen.posX

/-- The next line is one below, or the whole screen moves up under the last line. -/
def newline (screen : Screen) : Screen :=
  if inside : screen.posY.val + 1 < numRows then
    { screen with posX := 0, posY := ⟨screen.posY + 1, inside⟩ }
  else
    { screen with
      cell := fun index =>
        if index < numCols * (numRows - 1) then screen.cell (index + numCols) else (32, attrib)
      posX := 0 }

def write (value : UInt8 × UInt8) (screen : Screen) : Screen :=
  { screen with cell := Function.update screen.cell screen.position value }

def putc (input attr : UInt8) (screen : Screen) : Screen :=
  if input = 10 ∨ input = 13 then screen.newline
  else if inside : screen.posX.val + 1 < numCols then
    { screen.write (input, attr) with posX := ⟨screen.posX + 1, inside⟩ }
  else (screen.write (input, attr)).newline

def clear : Screen := ⟨fun _ => (32, attrib), 0, 0⟩

theorem position_lt (screen : Screen) : screen.position < numRows * numCols := by
  have row := screen.posY.isLt
  have column := screen.posX.isLt
  unfold position
  simp only [numRows, numCols] at row column ⊢
  omega

end Screen

/-- The character and the attribute of one cell. -/
def cellAt (video : Nat → UInt8) (start cell : Nat) : UInt8 × UInt8 :=
  (video (start + 2 * cell), video (start + 2 * cell + 1))

theorem cellAt_storeCell (start cell : Nat) (input attr : UInt8) (video : Nat → UInt8) :
    cellAt (storeCell start cell input attr video) start =
      Function.update (cellAt video start) cell (input, attr) := by
  funext other
  unfold cellAt storeCell
  simp only [Function.update_apply]
  by_cases same : other = cell
  · subst same
    simp
  · simp only [if_neg same, show start + 2 * other ≠ start + 2 * cell + 1 by omega,
      show start + 2 * other ≠ start + 2 * cell by omega,
      show start + 2 * other + 1 ≠ start + 2 * cell + 1 by omega,
      show start + 2 * other + 1 ≠ start + 2 * cell by omega, if_false]

/-- The bytes outside the cells of a screen are the same. -/
def SameOutside (start : Nat) (before after : Nat → UInt8) : Prop :=
  ∀ address, address < start ∨ start + 2 * (numRows * numCols) ≤ address →
    after address = before address

theorem sameOutside_refl (start : Nat) (video : Nat → UInt8) : SameOutside start video video :=
  fun _ _ => rfl

theorem sameOutside_storeCell {start cell : Nat} (inside : cell < numRows * numCols)
    (input attr : UInt8) {before video : Nat → UInt8} (same : SameOutside start before video) :
    SameOutside start before (storeCell start cell input attr video) := by
  intro address outside
  simp only [numRows, numCols] at inside outside
  unfold storeCell
  rw [Function.update_of_ne (by omega), Function.update_of_ne (by omega)]
  exact same address (by simpa only [numRows, numCols] using outside)

/-- A loop that stores one cell in each round changes nothing else. -/
theorem sameOutside_forLoop {start first count : Nat} {before video : Nat → UInt8}
    (inside : first + count ≤ numRows * numCols) (value : Nat → (Nat → UInt8) → UInt8 × UInt8)
    (same : SameOutside start before video) :
    SameOutside start before (forLoop (fun cell current =>
      storeCell start cell (value cell current).1 (value cell current).2 current)
        first count video) := by
  apply forLoop_rule (fun _ current => SameOutside start before current) same
  intro done current early kept
  exact sameOutside_storeCell (by omega) _ _ kept

/-- The fill loop stores the same cell in every place of its range. -/
theorem cellAt_fill (start first count : Nat) (input attr : UInt8) (video : Nat → UInt8) :
    cellAt (forLoop (fun cell => storeCell start cell input attr) first count video) start =
      fun cell => if first ≤ cell ∧ cell < first + count then (input, attr)
        else cellAt video start cell := by
  apply forLoop_rule (fun done current => cellAt current start = fun cell =>
    if first ≤ cell ∧ cell < first + done then (input, attr) else cellAt video start cell)
  · funext cell
    rw [if_neg (by omega)]
  · intro done current early filled
    rw [cellAt_storeCell, filled]
    funext cell
    rw [Function.update_apply]
    by_cases own : cell = first + done
    · rw [if_pos own, if_pos (by omega)]
    · simp only [if_neg own, show (first ≤ cell ∧ cell < first + (done + 1)) ↔
        (first ≤ cell ∧ cell < first + done) by omega]

/-- The scroll loop copies each cell from one row below, which it has not stored yet. -/
theorem cellAt_scroll (start count : Nat) (video : Nat → UInt8) :
    cellAt (forLoop (copyCell start) 0 count video) start =
      fun cell => if cell < count then cellAt video start (cell + numCols)
        else cellAt video start cell := by
  apply forLoop_rule (fun done current => cellAt current start = fun cell =>
    if cell < done then cellAt video start (cell + numCols) else cellAt video start cell)
  · funext cell
    rw [if_neg (by omega)]
  · intro done current early copied
    have below : cellAt current start (0 + done + numCols) =
        cellAt video start (done + numCols) := by
      rw [copied, Nat.zero_add]
      exact if_neg (by omega)
    change cellAt (storeCell start (0 + done) (cellAt current start (0 + done + numCols)).1
      (cellAt current start (0 + done + numCols)).2 current) start = _
    rw [cellAt_storeCell, below, copied, Nat.zero_add]
    funext cell
    rw [Function.update_apply]
    by_cases own : cell = done
    · rw [if_pos own, if_pos (by omega), own]
    · simp only [if_neg own, show cell < done + 1 ↔ cell < done by omega]

/-- The cells and the position of a terminal are those of a screen. -/
structure Shows (terminal : Terminal) (video : Nat → UInt8) (screen : Screen) : Prop where
  posX : terminal.posX = screen.posX
  posY : terminal.posY = screen.posY
  cells : ∀ cell < numRows * numCols, cellAt video terminal.videoStart cell = screen.cell cell

theorem scrollScreen_of_lt {terminal : Terminal} (inside : terminal.posY < numRows)
    (video : Nat → UInt8) : scrollScreen terminal video = (terminal, video) :=
  if_neg (by omega)

namespace Shows
variable {terminal : Terminal} {video : Nat → UInt8} {screen : Screen} {input attr : UInt8}

/-- The number of the cell that `terminal_putc` stores. -/
theorem position (shows : Shows terminal video screen) :
    numCols * terminal.posY + terminal.posX = screen.position := by
  rw [shows.posX, shows.posY, Screen.position]

theorem write (shows : Shows terminal video screen) :
    Shows terminal (storeCell terminal.videoStart (numCols * terminal.posY + terminal.posX)
      input attr video) (screen.write (input, attr)) := by
  refine ⟨shows.posX, shows.posY, fun cell inside => ?_⟩
  rw [cellAt_storeCell, shows.position]
  change Function.update _ _ _ cell = Function.update _ _ _ cell
  simp only [Function.update_apply, shows.cells cell inside]

/-- A line feed moves the screen up when it leaves the last line. -/
theorem newline (shows : Shows terminal video screen) :
    let scrolled := scrollScreen { terminal with posY := terminal.posY + 1, posX := 0 } video
    Shows scrolled.1 scrolled.2 screen.newline := by
  have row := shows.posY
  have bound := screen.posY.isLt
  unfold scrollScreen Screen.newline
  by_cases inside : screen.posY.val + 1 < numRows
  · rw [if_neg (by dsimp only; omega), dif_pos inside]
    exact ⟨rfl, congrArg (· + 1) row, shows.cells⟩
  · rw [if_pos (by dsimp only; omega), dif_neg inside]
    refine ⟨rfl, ?_, fun cell small => ?_⟩
    · change numRows - 1 = screen.posY.val
      omega
    · dsimp only
      rw [cellAt_fill, cellAt_scroll]
      dsimp only
      by_cases last : numCols * (numRows - 1) ≤ cell
      · rw [if_pos ⟨last, by simp only [numRows, numCols] at small ⊢; omega⟩,
          if_neg (by omega)]
      · rw [if_neg (by omega), if_pos (by omega), if_pos (by omega)]
        exact shows.cells _ (by simp only [numRows, numCols] at last ⊢; omega)

/-- The two parts of `terminal_putc` act as one `putc` on the screen. -/
theorem putc (shows : Shows terminal video screen) (input attr : UInt8) :
    let placed := placeCharacter input attr terminal video
    let scrolled := scrollScreen placed.1 placed.2
    Shows scrolled.1 scrolled.2 (screen.putc input attr) := by
  have row := shows.posY
  have column := shows.posX
  have bound := screen.posY.isLt
  unfold placeCharacter Screen.putc
  by_cases feed : input = 10 ∨ input = 13
  · rw [if_pos feed, if_pos feed]
    exact shows.newline
  · rw [if_neg feed, if_neg feed]
    by_cases inside : screen.posX.val + 1 < numCols
    · rw [if_neg (by omega), dif_pos inside]
      dsimp only
      rw [scrollScreen_of_lt (by dsimp only; omega)]
      exact ⟨congrArg (· + 1) column, row, shows.write.cells⟩
    · rw [if_pos (by omega), dif_neg inside]
      exact shows.write.newline

/-- The loop of `clear_terminal` reaches every cell. -/
theorem clear (terminal : Terminal) (video : Nat → UInt8) :
    Shows { terminal with posX := 0, posY := 0 }
      (forLoop (fun cell => storeCell terminal.videoStart cell 32 attrib)
        0 (numRows * numCols) video) Screen.clear := by
  refine ⟨rfl, rfl, fun cell inside => ?_⟩
  rw [cellAt_fill]
  exact if_pos ⟨Nat.zero_le cell, by omega⟩

/-- A change outside the cells of a terminal does not show. -/
theorem elsewhere (shows : Shows terminal video screen) {start : Nat} {after : Nat → UInt8}
    (same : SameOutside start video after)
    (apart : terminal.videoStart + 0x1000 ≤ start ∨ start + 0x1000 ≤ terminal.videoStart) :
    Shows terminal after screen := by
  refine ⟨shows.posX, shows.posY, fun cell inside => ?_⟩
  rw [← shows.cells cell inside]
  simp only [numRows, numCols] at inside
  unfold SameOutside at same
  simp only [numRows, numCols] at same
  unfold cellAt
  rw [same _ (by omega), same _ (by omega)]

end Shows

/-- The first part of `terminal_putc` sets no field but the position. -/
theorem placeCharacter_terminal (input attr : UInt8) (terminal : Terminal)
    (video : Nat → UInt8) :
    ∃ posX posY, (placeCharacter input attr terminal video).1 =
      { terminal with posX := posX, posY := posY } := by
  unfold placeCharacter
  dsimp only
  split_ifs <;> exact ⟨_, _, rfl⟩

/-- The second part of `terminal_putc` sets no field but the line. -/
theorem scrollScreen_terminal (terminal : Terminal) (video : Nat → UInt8) :
    ∃ posY, (scrollScreen terminal video).1 = { terminal with posY := posY } := by
  unfold scrollScreen
  dsimp only
  split_ifs <;> exact ⟨_, rfl⟩

theorem sameOutside_placeCharacter (input attr : UInt8) {terminal : Terminal}
    (inside : numCols * terminal.posY + terminal.posX < numRows * numCols)
    (video : Nat → UInt8) :
    SameOutside terminal.videoStart video (placeCharacter input attr terminal video).2 := by
  have stored := sameOutside_storeCell inside input attr
    (sameOutside_refl terminal.videoStart video)
  unfold placeCharacter
  dsimp only
  split_ifs
  · exact sameOutside_refl terminal.videoStart video
  · exact stored
  · exact stored

theorem sameOutside_scrollScreen (terminal : Terminal) {before video : Nat → UInt8}
    (same : SameOutside terminal.videoStart before video) :
    SameOutside terminal.videoStart before (scrollScreen terminal video).2 := by
  unfold scrollScreen
  split
  · have rows : 0 + numCols * (numRows - 1) ≤ numRows * numCols := by decide
    have moved := sameOutside_forLoop rows
      (fun cell current => cellAt current terminal.videoStart (cell + numCols)) same
    exact sameOutside_forLoop (by decide) (fun _ _ => (32, attrib)) moved
  · exact same

/-- Both parts of `terminal_putc` set no field but the position. -/
theorem putc_terminal (input attr : UInt8) (terminal : Terminal) (video : Nat → UInt8) :
    let placed := placeCharacter input attr terminal video
    ∃ posX posY, (scrollScreen placed.1 placed.2).1 =
      { terminal with posX := posX, posY := posY } := by
  obtain ⟨posX, posY, moved⟩ := placeCharacter_terminal input attr terminal video
  obtain ⟨line, scrolled⟩ := scrollScreen_terminal
    (placeCharacter input attr terminal video).1 (placeCharacter input attr terminal video).2
  refine ⟨posX, line, ?_⟩
  rw [scrolled, moved]

/-- Both parts of `terminal_putc` change no cell of another screen. -/
theorem sameOutside_putc (input attr : UInt8) {terminal : Terminal}
    (inside : numCols * terminal.posY + terminal.posX < numRows * numCols)
    (video : Nat → UInt8) :
    let placed := placeCharacter input attr terminal video
    SameOutside terminal.videoStart video (scrollScreen placed.1 placed.2).2 := by
  have stored := sameOutside_placeCharacter input attr inside video
  obtain ⟨posX, posY, moved⟩ := placeCharacter_terminal input attr terminal video
  have start : (placeCharacter input attr terminal video).1.videoStart = terminal.videoStart := by
    rw [moved]
  rw [← start] at stored ⊢
  exact sameOutside_scrollScreen _ stored

end ComputerSystems.Kernel
