import ComputerSystems.Proof.Kernel.TerminalScreens

namespace ComputerSystems.Kernel
open ComputerSystems.Library

attribute [ext] Screen

/-- An unbounded page of 80 columns. The rows below the cursor are not written yet. -/
structure Page where
  cell : Nat → Nat → UInt8 × UInt8
  row : Nat
  column : Fin numCols
  below : ∀ line place, row < line → cell line place = (32, attrib)

namespace Page

/-- The page before the first character. -/
def clear : Page := ⟨fun _ _ => (32, attrib), 0, 0, fun _ _ _ => rfl⟩

def newline (page : Page) : Page where
  cell := page.cell
  row := page.row + 1
  column := 0
  below line place lower := page.below line place (by omega)

/-- A character takes the place of the cursor. -/
def write (value : UInt8 × UInt8) (page : Page) : Page where
  cell line place :=
    if line = page.row ∧ place = page.column then value else page.cell line place
  row := page.row
  column := page.column
  below line place lower := by
    rw [if_neg (by omega)]
    exact page.below line place lower

def putc (input attr : UInt8) (page : Page) : Page :=
  if input = 10 ∨ input = 13 then page.newline
  else if inside : page.column.val + 1 < numCols then
    { page.write (input, attr) with column := ⟨page.column + 1, inside⟩ }
  else (page.write (input, attr)).newline

/-- The first row of the window. -/
def top (page : Page) : Nat := page.row - (numRows - 1)

/-- The screen of 25 rows that ends at the cursor, or at row 24. -/
def window (page : Page) : Screen where
  cell index := page.cell (page.top + index / numCols) (index % numCols)
  posX := page.column
  posY := ⟨page.row - page.top, by unfold top; dsimp only [numRows]; omega⟩

theorem window_position (page : Page) :
    page.window.position = numCols * (page.row - page.top) + page.column := rfl

theorem window_clear : clear.window = Screen.clear := rfl

theorem window_write (value : UInt8 × UInt8) (page : Page) :
    (page.write value).window = page.window.write value := by
  have column := page.column.isLt
  have cells : (page.write value).window.cell =
      Function.update page.window.cell page.window.position value := by
    funext index
    rw [Function.update_apply, window_position]
    change (if page.top + index / numCols = page.row ∧ index % numCols = page.column then value
      else page.cell (page.top + index / numCols) (index % numCols)) = _
    have place : page.top + index / numCols = page.row ∧ index % numCols = page.column ↔
        index = numCols * (page.row - page.top) + page.column := by
      unfold top
      dsimp only [numCols, numRows] at column ⊢
      omega
    simp only [place]
    rfl
  unfold Screen.write
  rw [← cells]
  rfl

/-- A line feed moves the cursor down in the window, or the window down on the page. -/
theorem window_newline (page : Page) : page.newline.window = page.window.newline := by
  unfold Screen.newline
  by_cases inside : page.window.posY.val + 1 < numRows
  · rw [dif_pos inside]
    change page.row - page.top + 1 < numRows at inside
    have top : page.newline.top = page.top := by
      simp only [Page.top, newline, numRows] at inside ⊢
      omega
    apply Screen.ext
    case cell =>
      funext index
      simp only [window, top]
      rfl
    case posX => rfl
    case posY =>
      apply Fin.ext
      simp only [window, newline]
      simp only [Page.top, numRows] at inside ⊢
      omega
  · rw [dif_neg inside]
    change ¬page.row - page.top + 1 < numRows at inside
    have top : page.newline.top = page.top + 1 := by
      simp only [Page.top, newline, numRows] at inside ⊢
      omega
    apply Screen.ext
    case cell =>
      funext index
      simp only [window, top]
      split
      · simp only [newline, numCols, Nat.add_div_right, Nat.add_mod_right, Nat.zero_lt_succ]
        congr 1
        omega
      · apply page.below
        simp only [Page.top, numRows, numCols] at *
        omega
    case posX => rfl
    case posY =>
      apply Fin.ext
      simp only [window, newline]
      simp only [Page.top, numRows] at inside ⊢
      omega

theorem window_putc (input attr : UInt8) (page : Page) :
    (page.putc input attr).window = page.window.putc input attr := by
  unfold putc Screen.putc
  by_cases feed : input = 10 ∨ input = 13
  · rw [if_pos feed, if_pos feed, window_newline]
  · rw [if_neg feed, if_neg feed, ← window_write]
    by_cases inside : page.column.val + 1 < numCols
    · have own : page.window.posX.val + 1 < numCols := inside
      rw [dif_pos inside, dif_pos own]
      rfl
    · have own : ¬page.window.posX.val + 1 < numCols := inside
      rw [dif_neg inside, dif_neg own, window_newline]

end Page

/-- One call that writes characters to a terminal. -/
inductive WriteCall where
  | putc (input attr : UInt8)
  | write (fd : Fin 8) (buffer : Option (Nat → UInt8)) (characters : Int)

namespace WriteCall

/-- The characters of a call with their attributes. -/
def characters : WriteCall → List (UInt8 × UInt8)
  | putc input attr => [(input, attr)]
  | write _ none _ => []
  | write fd (some bytes) count =>
      if fd = 0 then [] else (List.range count.toNat).map fun position => (bytes position, attrib)

def apply (index : Fin 3) (console : Console) : WriteCall → Console
  | putc input attr => terminalPutc input attr index console
  | write fd buffer count => (terminalWrite fd buffer count index console).2

end WriteCall

def putCharacter (index : Fin 3) (console : Console) (character : UInt8 × UInt8) : Console :=
  terminalPutc character.1 character.2 index console

/-- A call acts on the console as its characters one by one. -/
theorem WriteCall.apply_eq (index : Fin 3) (console : Console) (call : WriteCall) :
    call.apply index console = call.characters.foldl (putCharacter index) console := by
  cases call with
  | putc input attr => rfl
  | write fd buffer count =>
      cases buffer with
      | none =>
          simp only [apply, terminalWrite, characters, List.foldl_nil]
          split <;> rfl
      | some bytes =>
          simp only [apply, terminalWrite, characters]
          by_cases input : fd = 0
          · simp only [if_pos input, List.foldl_nil]
          · simp only [if_neg input, List.foldl_map, forLoop_eq_foldl, Nat.zero_add]
            rfl

/-- The memory of a terminal shows the window on a page, and nothing outside has changed. -/
structure ShowsPage (before video : Nat → UInt8) (terminal : Terminal) (page : Page) : Prop where
  cells : ∀ row < numRows, ∀ column < numCols,
    cellAt video terminal.videoStart (numCols * row + column) =
      page.cell (page.row - (numRows - 1) + row) column
  posX : terminal.posX = page.column
  posY : terminal.posY = page.row - (page.row - (numRows - 1))
  inside : terminal.posX < numCols ∧ terminal.posY < numRows
  outside : SameOutside terminal.videoStart before video

/-- The state of the induction over the characters. -/
structure OnPage (before : Nat → UInt8) (console : Console) (index : Fin 3) (page : Page) :
    Prop where
  shows : Shows (console.terminals index) console.video page.window
  outside : SameOutside (console.terminals index).videoStart before console.video

namespace OnPage
variable {before : Nat → UInt8} {console : Console} {index : Fin 3} {page : Page}

theorem redraw {terminal : Terminal} {video : Nat → UInt8}
    (shows : Shows terminal video page.window)
    (outside : SameOutside terminal.videoStart before video) :
    OnPage before (redrawn console index terminal video) index page := by
  obtain ⟨terminals, _, cells⟩ := redrawn_fields console index terminal video
  constructor
  · rw [terminals, cells, Console.setTerminal_self]
    exact shows
  · rw [terminals, cells, Console.setTerminal_self]
    exact outside

theorem clear (index : Fin 3) (console : Console) :
    OnPage console.video (clearTerminal index console) index Page.clear := by
  have whole : 0 + numRows * numCols ≤ numRows * numCols := by decide
  apply redraw
  · rw [Page.window_clear]
    exact Shows.clear (console.terminals index) console.video
  · exact sameOutside_forLoop whole (fun _ _ => (32, attrib))
      (sameOutside_refl (console.terminals index).videoStart console.video)

theorem putc (onPage : OnPage before console index page) (input attr : UInt8) :
    OnPage before (terminalPutc input attr index console) index (page.putc input attr) := by
  have own := onPage.shows.putc input attr
  have inside := page.window.position_lt
  rw [← onPage.shows.position] at inside
  have same := sameOutside_putc input attr inside console.video
  obtain ⟨posX, posY, moved⟩ := putc_terminal input attr (console.terminals index) console.video
  dsimp only at own same moved
  rw [← Page.window_putc] at own
  apply redraw own
  rw [moved]
  intro address apart
  rw [same address apart]
  exact onPage.outside address apart

theorem run (onPage : OnPage before console index page) (characters : List (UInt8 × UInt8)) :
    OnPage before (characters.foldl (putCharacter index) console) index
      (characters.foldl (fun page character => page.putc character.1 character.2) page) := by
  induction characters generalizing console page with
  | nil => exact onPage
  | cons character rest ih => exact ih (onPage.putc character.1 character.2)

theorem showsPage (onPage : OnPage before console index page) :
    ShowsPage before console.video (console.terminals index) page := by
  have column := page.window.posX.isLt
  have row := page.window.posY.isLt
  constructor
  case cells =>
    intro row low column left
    simp only [numRows, numCols] at low left
    rw [onPage.shows.cells _ (by simp only [numRows, numCols]; omega)]
    simp only [Page.window, Page.top, numCols, Nat.mul_add_div, Nat.mul_add_mod_self_left,
      Nat.div_eq_of_lt left, Nat.mod_eq_of_lt left, Nat.zero_lt_succ, Nat.add_zero]
  case posX => exact onPage.shows.posX
  case posY => exact onPage.shows.posY
  case inside => exact ⟨onPage.shows.posX ▸ column, onPage.shows.posY ▸ row⟩
  case outside => exact onPage.outside

end OnPage

/-- Calls write character by character, and after any characters the screen is a window on the
unbounded page. -/
theorem terminal_showsPage (index : Fin 3) (console : Console) :
    (∀ calls : List WriteCall,
      calls.foldl (WriteCall.apply index) (clearTerminal index console) =
        (calls.flatMap WriteCall.characters).foldl (putCharacter index)
          (clearTerminal index console)) ∧
      ∀ characters : List (UInt8 × UInt8),
        let after := characters.foldl (putCharacter index) (clearTerminal index console)
        ShowsPage console.video after.video (after.terminals index)
          (characters.foldl (fun page character => page.putc character.1 character.2)
            Page.clear) := by
  constructor
  · intro calls
    rw [List.foldl_flatMap]
    congr 1
    funext current call
    exact call.apply_eq index current
  · exact fun characters => ((OnPage.clear index console).run characters).showsPage

end ComputerSystems.Kernel
