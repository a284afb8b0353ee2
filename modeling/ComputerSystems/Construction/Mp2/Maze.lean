import Mathlib.Tactic

namespace ComputerSystems.Mp2

abbrev mazeMinXDim : Nat := 14
abbrev mazeMaxXDim : Nat := 50
abbrev mazeMinYDim : Nat := 8
abbrev mazeMaxYDim : Nat := 30
abbrev numFruitTypes : Nat := 7

abbrev mazeNone : UInt8 := 0
abbrev mazeWall : UInt8 := 1
abbrev mazeFruit1 : UInt8 := 2
abbrev mazeFruit : UInt8 := 14
abbrev mazeExit : UInt8 := 16
abbrev mazeReach : UInt8 := 128

/-- The static variables of the maze module. -/
structure Maze where
  cells : Nat → UInt8
  xDim : Nat
  yDim : Nat
  nFruits : Int
  exitX : Nat
  exitY : Nat

namespace Maze

/-- The left and right boundaries share a column, and one row lies above the maze. -/
def mazeIndex (maze : Maze) (x y : Nat) : Nat := x + (y + 1) * maze.xDim * 2

def get (maze : Maze) (x y : Nat) : UInt8 := maze.cells (maze.mazeIndex x y)

def put (maze : Maze) (x y : Nat) (value : UInt8) : Maze :=
  { maze with cells := Function.update maze.cells (maze.mazeIndex x y) value }

end Maze

/-- The breadth-first search: the locations in the queue that are not explored and the number of
all locations that entered it. -/
structure Search where
  cells : Nat → UInt8
  queue : List Nat
  qEnd : Nat

/-- A location behind an open space enters the queue once. -/
def Search.explore (search : Search) (between next : Nat) : Search :=
  if search.cells between &&& mazeWall = 0 ∧ search.cells next &&& mazeReach = 0 then
    { cells := Function.update search.cells next (search.cells next ||| mazeReach)
      queue := search.queue ++ [next]
      qEnd := search.qEnd + 1 }
  else search

def Search.exploreAll (search : Search) (xDim cur : Nat) : Search :=
  let up := search.explore (cur - 2 * xDim) (cur - 4 * xDim)
  let right := up.explore (cur + 1) (cur + 2)
  let down := right.explore (cur + 2 * xDim) (cur + 4 * xDim)
  down.explore (cur - 1) (cur - 2)

/-- The search runs until its queue is empty. -/
def searchLoop (xDim : Nat) : Nat → Search → Option Search
  | 0, _ => none
  | fuel + 1, search =>
      match search.queue with
      | [] => some search
      | cur :: rest =>
          searchLoop xDim fuel ({ search with queue := rest }.exploreAll xDim cur)

/-- The result has the maze with its new marks and the number of marked locations. -/
def markMazeArea (fuel : Nat) (maze : Maze) (x y : Nat) : Option (Maze × Nat) :=
  let start := maze.put x y (maze.get x y ||| mazeReach)
  (searchLoop maze.xDim fuel ⟨start.cells, [maze.mazeIndex x y], 1⟩).map fun search =>
    ({ maze with cells := search.cells }, search.qEnd)

/-- A random lattice point that passes the check ends the loop. The number of random numbers
drawn before is part of the state. -/
def pick (random : Nat → Nat) (maze : Maze) (stop : UInt8 → Bool) :
    Nat → Nat → Option (Nat × Nat × Nat)
  | 0, _ => none
  | fuel + 1, drawn =>
      let x := random drawn % maze.xDim * 2 + 1
      let y := random (drawn + 1) % maze.yDim * 2 + 1
      if stop (maze.get x y) then some (x, y, drawn + 2)
      else pick random maze stop fuel (drawn + 2)

/-- The weight of a turn depends on whether the space that it leads to is a wall. -/
def turnWt (turn : Nat) (wall : Bool) : Nat :=
  match turn with
  | 0 => if wall then 84 else 1
  | 1 => if wall then 9 else 1
  | 2 => 3
  | _ => if wall then 9 else 1

/-- The worm phase of the generation. -/
structure Worm where
  maze : Maze
  remaining : Int
  x : Nat
  y : Nat
  prefDir : Nat
  drawn : Nat

namespace Worm

/-- The cumulative weights of the four directions. -/
def wt (worm : Worm) : List Nat :=
  let weight (turn x y : Nat) : Nat := turnWt (turn % 4) (worm.maze.get x y = mazeWall)
  let up := if 1 < worm.y then weight worm.prefDir worm.x (worm.y - 2) else 0
  let right := up + if worm.x < worm.maze.xDim * 2 - 1 then
    weight (worm.prefDir + 3) (worm.x + 2) worm.y else 0
  let down := right + if worm.y < worm.maze.yDim * 2 - 1 then
    weight (worm.prefDir + 2) worm.x (worm.y + 2) else 0
  let left := down + if 1 < worm.x then weight (worm.prefDir + 1) (worm.x - 2) worm.y else 0
  [up, right, down, left]

/-- The first direction whose cumulative weight is above the random value. -/
def dir (worm : Worm) (random : Nat → Nat) : Nat :=
  worm.wt.findIdx fun weight => random worm.drawn % worm.wt.getD 3 0 < weight

/-- The worm eats the wall at the new space and remembers its direction. -/
def arrive (worm : Worm) (maze : Maze) (x y dir : Nat) : Worm :=
  { maze := maze.put x y mazeNone
    remaining := if maze.get x y = mazeWall then worm.remaining - 1 else worm.remaining
    x := x
    y := y
    prefDir := dir
    drawn := worm.drawn + 1 }

/-- One move opens the space between two lattice points. -/
def move (worm : Worm) (dir : Nat) : Worm :=
  match dir with
  | 0 => worm.arrive (worm.maze.put worm.x (worm.y - 1) mazeNone) worm.x (worm.y - 2) dir
  | 1 => worm.arrive (worm.maze.put (worm.x + 1) worm.y mazeNone) (worm.x + 2) worm.y dir
  | 2 => worm.arrive (worm.maze.put worm.x (worm.y + 1) mazeNone) worm.x (worm.y + 2) dir
  | 3 => worm.arrive (worm.maze.put (worm.x - 1) worm.y mazeNone) (worm.x - 2) worm.y dir
  | _ => worm.arrive worm.maze worm.x worm.y dir

end Worm

/-- One worm moves until it decides to turn around. -/
def wormLoop (random : Nat → Nat) : Nat → Worm → Option Worm
  | 0, _ => none
  | fuel + 1, worm =>
      let dir := worm.dir random
      if (dir + 4 - worm.prefDir) % 4 = 2 then some { worm with drawn := worm.drawn + 1 }
      else wormLoop random fuel (worm.move dir)

/-- Worms are dropped until no lattice point is a wall. -/
def wormPhase (random : Nat → Nat) : Nat → Worm → Option Worm
  | 0, _ => none
  | fuel + 1, worm =>
      match pick random worm.maze (fun cell => cell &&& mazeWall ≠ 0) fuel worm.drawn with
      | none => none
      | some (x, y, drawn) =>
          let dropped : Worm :=
            { maze := worm.maze.put x y mazeNone
              remaining := worm.remaining - 1
              x := x
              y := y
              prefDir := random drawn % 4
              drawn := drawn + 1 }
          match wormLoop random fuel dropped with
          | none => none
          | some done => if 0 < done.remaining then wormPhase random fuel done else some done

/-- The phase of the generation that connects the maze. -/
structure Repair where
  maze : Maze
  remaining : Int
  trials : Int
  x : Nat
  y : Nat
  drawn : Nat

namespace Repair

/-- The scan goes to the next lattice point of the row or of the next row. -/
def advance (repair : Repair) : Repair :=
  if repair.maze.xDim * 2 < repair.x + 2 then
    { repair with
      x := repair.x + 2 - repair.maze.xDim * 2
      y := if 2 * repair.maze.yDim < repair.y + 2 then repair.y + 2 - 2 * repair.maze.yDim
        else repair.y + 2 }
  else { repair with x := repair.x + 2 }

/-- The wall to a marked neighbour is knocked down, first in the order up, left, right, down. -/
def breach (repair : Repair) : Option Maze :=
  let cur := repair.maze.mazeIndex repair.x repair.y
  let cells := repair.maze.cells
  let dim := repair.maze.xDim
  let dig (place : Nat) : Option Maze :=
    some { repair.maze with cells := Function.update cells place mazeNone }
  if 1 < repair.y ∧ cells (cur - 4 * dim) &&& mazeReach ≠ 0 then dig (cur - 2 * dim)
  else if 1 < repair.x ∧ cells (cur - 2) &&& mazeReach ≠ 0 then dig (cur - 1)
  else if repair.x < 2 * dim - 1 ∧ cells (cur + 2) &&& mazeReach ≠ 0 then dig (cur + 1)
  else if repair.y < 2 * repair.maze.yDim - 1 ∧ cells (cur + 4 * dim) &&& mazeReach ≠ 0 then
    dig (cur + 2 * dim)
  else none

/-- A newly connected portion of the maze is marked. -/
def connect (fuel : Nat) (repair : Repair) : Option Repair :=
  match repair.breach with
  | none => some repair
  | some maze =>
      (markMazeArea fuel maze repair.x repair.y).map fun marked =>
        { repair with maze := marked.1, remaining := repair.remaining - marked.2 }

/-- One point of the scan. -/
def scan (fuel : Nat) (repair : Repair) : Option Repair :=
  let next := repair.advance
  if next.maze.get next.x next.y &&& mazeReach ≠ 0 then some next else next.connect fuel

/-- One random point that is not marked. -/
def attempt (random : Nat → Nat) (fuel : Nat) (repair : Repair) : Option Repair :=
  match pick random repair.maze (fun cell => cell &&& mazeReach = 0) fuel repair.drawn with
  | none => none
  | some (x, y, drawn) => { repair with x := x, y := y, drawn := drawn }.connect fuel

/-- The trials are counted only while many points are not connected. -/
def body (random : Nat → Nat) (fuel : Nat) (repair : Repair) : Option Repair :=
  if repair.remaining < 20 then repair.scan fuel
  else
    let counted := { repair with trials := repair.trials + 1 }
    if 100 < counted.trials then counted.scan fuel else counted.attempt random fuel

end Repair

def repairLoop (random : Nat → Nat) : Nat → Repair → Option Repair
  | 0, _ => none
  | fuel + 1, repair =>
      match repair.body random fuel with
      | none => none
      | some next => if 0 < next.remaining then repairLoop random fuel next else some next

/-- The first rounds of the loop, which may end it. -/
def repairRounds (random : Nat → Nat) (fuel : Nat) : Nat → Repair → Option Repair
  | 0, repair => some repair
  | rounds + 1, repair =>
      match repair.body random fuel with
      | none => none
      | some next => if 0 < next.remaining then repairRounds random fuel rounds next else some next

/-- The part of `make_maze` up to the removal of the marks, with the number of random numbers
drawn. -/
def digMaze (fuel : Nat) (random : Nat → Nat) (maze : Maze) : Option (Maze × Nat) :=
  let filled := { maze with cells := fun _ => mazeWall }
  let total : Int := (maze.xDim * maze.yDim : Nat)
  match wormPhase random fuel ⟨filled, total, 0, 0, 0, 0⟩ with
  | none => none
  | some worm =>
      match markMazeArea fuel worm.maze 1 1 with
      | none => none
      | some (marked, count) =>
          (repairLoop random fuel ⟨marked, total - count, 0, worm.x, worm.y, worm.drawn⟩).map
            fun repair => (repair.maze, repair.drawn)

/-- A double loop over the cells of a region. -/
def forCells (xs ys : List Nat) (change : UInt8 → UInt8) (maze : Maze) : Maze :=
  xs.foldl (fun maze x => ys.foldl (fun maze y => maze.put x y (change (maze.get x y))) maze) maze

def addAFruitInternal (random : Nat → Nat) (fuel : Nat) (maze : Maze) (drawn : Nat) :
    Option (Maze × Nat) :=
  (pick random maze (fun cell => cell &&& mazeFruit = 0) fuel drawn).map fun (x, y, drawn) =>
    let fruit := UInt8.ofNat (random drawn % numFruitTypes + 1) * mazeFruit1
    ({ maze.put x y (maze.get x y ||| fruit) with nFruits := maze.nFruits + 1 }, drawn + 1)

def addFruits (random : Nat → Nat) (fuel : Nat) : Nat → Maze → Nat → Option (Maze × Nat)
  | 0, maze, drawn => some (maze, drawn)
  | count + 1, maze, drawn =>
      match addAFruitInternal random fuel maze drawn with
      | none => none
      | some (fruited, drawn) => addFruits random fuel count fruited drawn

/-- The exit is at a lattice point without fruit. -/
def placeExit (random : Nat → Nat) (fuel : Nat) (maze : Maze) (drawn : Nat) : Option Maze :=
  (pick random maze (fun cell => cell &&& mazeFruit = 0) fuel drawn).map fun (x, y, _) =>
    { maze.put x y (maze.get x y ||| mazeExit) with exitX := x, exitY := y }

/-- The result is the return value with the new maze, unless the random numbers keep a loop
running. -/
def makeMaze (fuel : Nat) (random : Nat → Nat) (xDim yDim startFruits : Nat) (before : Maze) :
    Option (Int × Maze) :=
  if xDim < mazeMinXDim ∨ mazeMaxXDim < xDim ∨ yDim < mazeMinYDim ∨ mazeMaxYDim < yDim then
    some (-1, before)
  else
    match digMaze fuel random { before with xDim := xDim, yDim := yDim } with
    | none => none
    | some (dug, drawn) =>
        let odd (dim : Nat) : List Nat := (List.range dim).map fun index => index * 2 + 1
        let unmarked := forCells (odd xDim) (odd yDim) (fun cell => cell &&& ~~~mazeReach) dug
        let god := forCells (List.range' 1 (2 * xDim - 1)) (List.range' 1 (2 * yDim - 1))
          (fun _ => mazeNone) unmarked
        match addFruits random fuel startFruits { god with nFruits := 0 } drawn with
        | none => none
        | some (fruited, drawn) => (placeExit random fuel fruited drawn).map fun maze => (0, maze)

end ComputerSystems.Mp2
