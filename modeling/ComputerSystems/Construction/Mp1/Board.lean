import ComputerSystems.Construction.Mp1.Driver

namespace ComputerSystems.Mp1

namespace Blink

/-- The offset of the character byte of the location. -/
def cell (blink : Blink) : Nat := 2 * blink.location.toNat

def shown (blink : Blink) : UInt8 := if blink.status = 0 then blink.offChar else blink.onChar

/-- A structure starts its first on period. -/
def lit (blink : Blink) : Blink := { blink with countdown := blink.onLength, status := 1 }

def dark (blink : Blink) : Blink := { blink with countdown := blink.offLength, status := 0 }

def counted (blink : Blink) : Blink := { blink with countdown := blink.countdown - 1 }

/-- The period of the structure ends at the next tick. -/
def expires (blink : Blink) : Bool := blink.countdown - 1 = 0

def ticked (blink : Blink) : Blink :=
  if blink.expires then if blink.status = 0 then blink.lit else blink.dark else blink.counted

/-- The target takes the timing of the source. -/
def follow (source target : Blink) : Blink := { target with
  onLength := source.onLength
  offLength := source.offLength
  countdown := source.countdown
  status := source.status }

end Blink

/-- A listed structure and the memory that holds it. -/
structure Listed where
  address : Nat
  blink : Blink

/-- The video memory and the offsets of the writes to it. -/
structure Screen where
  video : Nat → UInt8
  pokes : List Nat

def Screen.draw (screen : Screen) (blink : Blink) : Screen :=
  ⟨Function.update screen.video blink.cell blink.shown, blink.cell :: screen.pokes⟩

/-- A tick draws the structures whose period ends. -/
def Screen.tick (screen : Screen) (items : List Listed) : Screen :=
  items.foldl (fun screen item =>
    if item.blink.expires then screen.draw item.blink.ticked else screen) screen

/-- The abstract list of the structures that blink on the screen. -/
structure Board where
  items : List Listed
  screen : Screen
  results : List Int

namespace Board

def answer (board : Board) (result : Int) : Board :=
  { board with results := result :: board.results }

/-- The first listed structure with the location. -/
def first (items : List Listed) (location : UInt16) : Option Listed :=
  items.find? fun item => item.blink.location = location

/-- A structure is listed when it has memory, all its bytes and a place on the screen. -/
def add (board : Board) (helpers : Helpers) : Board :=
  match helpers.allocated with
  | none => board.answer (-1)
  | some address =>
      if helpers.uncopied ≠ 0 ∨ 1999 < helpers.copied.location.toNat then board.answer (-1)
      else { board with
        items := ⟨address, helpers.copied.toBlink.lit⟩ :: board.items
        screen := board.screen.draw helpers.copied.toBlink.lit }.answer 0

def remove (board : Board) (location : UInt16) : Board :=
  match first board.items location with
  | none => board.answer (-1)
  | some _ => { board with
      items := board.items.eraseP fun item => item.blink.location = location }.answer 0

/-- A find changes only the results. -/
def find (board : Board) (helpers : Helpers) (arg : BitVec 32) : Board :=
  if arg = 0 then board.answer (-1)
  else
    match first board.items helpers.userLocation with
    | none => board.answer (-1)
    | some _ => board.answer (if helpers.unsent ≠ 0 then -1 else 0)

/-- The timing of one listed structure changes. -/
def retime (items : List Listed) (address : Nat) (change : Blink → Blink) : List Listed :=
  items.map fun item =>
    if item.address = address then { item with blink := change item.blink } else item

def sync (board : Board) (source target : UInt16) : Board :=
  match first board.items source, first board.items target with
  | some leader, some follower => { board with
      items := retime board.items follower.address leader.blink.follow
      screen := board.screen.draw (leader.blink.follow follower.blink) }.answer 0
  | _, _ => board.answer (-1)

def tick (board : Board) : Board := { board with
  items := board.items.map fun item => { item with blink := item.blink.ticked }
  screen := board.screen.tick board.items }

def advance (board : Board) : Event → Board
  | .ioctl helpers arg cmd =>
      if 3 < cmd.toNat then board.answer (-1)
      else if cmd = 0 then board.add helpers
      else if cmd = 1 then board.remove ⟨arg.setWidth 16⟩
      else if cmd = 2 then board.find helpers arg
      else board.sync ⟨(arg >>> 16).setWidth 16⟩ ⟨arg.setWidth 16⟩
  | .rtcTasklet => board.tick

/-- Nothing is listed at first. -/
def start (video : Nat → UInt8) : Board := ⟨[], ⟨video, []⟩, []⟩

end Board

end ComputerSystems.Mp1
