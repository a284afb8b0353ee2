import ComputerSystems.Construction.Mp2.Display

namespace ComputerSystems.Mp2

open Library

abbrev showMin : Nat := 6
abbrev panBorder : Nat := 5

/-- The level parameters and the upper left display pixel of `game_info`, the maze, the display and
the position of the player in pixels. -/
structure Game where
  mazeXDim : Nat
  mazeYDim : Nat
  mapX : Nat
  mapY : Nat
  maze : Maze
  display : Display
  playX : Nat
  playY : Nat

/-- The result is that of `make_maze`. A level number below 1 asks for a maze that is too small. The
player starts at (1,1). -/
def prepareMazeLevel (blocks : Blocks) (fuel : Nat) (random : Nat → Nat) (level : Int)
    (game : Game) : Option (Int × Game) :=
  let offset := level - 1
  let mazeXDim := (min (mazeMinXDim + 2 * offset) mazeMaxXDim).toNat
  let mazeYDim := (min (mazeMinYDim + 2 * offset) mazeMaxYDim).toNat
  let initialFruitCount := (min (1 + offset.tdiv 2) 6).toNat
  (makeMaze fuel random mazeXDim mazeYDim initialFruitCount game.maze).map fun made =>
    let prepared := { game with
      mazeXDim := mazeXDim, mazeYDim := mazeYDim, mapX := showMin, mapY := showMin
      maze := made.2 }
    if made.1 ≠ 0 then (-1, prepared)
    else (0, { prepared with
      display := forLoop (fun i display => display.drawHorizLine blocks made.2 i) 0 scrollYDim
        (game.display.setViewWindow showMin showMin)
      playX := blockXDim, playY := blockYDim })

/-- The spaces around the player that are unveiled, in this order. -/
def around : List (Int × Int) :=
  [(-1, -1), (-1, 0), (-1, 1), (0, -1), (0, 0), (0, 1), (1, -1), (1, 0), (1, 1), (0, -2), (2, 0),
    (0, 2), (-2, 0)]

namespace Game

def moveUp (blocks : Blocks) (game : Game) : Game :=
  let moved := { game with playY := game.playY - 1 }
  if moved.playY < game.mapY + blockYDim * panBorder ∧ showMin < game.mapY then
    { moved with
      mapY := game.mapY - 1
      display := (game.display.setViewWindow game.mapX (game.mapY - 1)).drawHorizLine blocks
        game.maze 0 }
  else moved

def moveRight (blocks : Blocks) (game : Game) : Game :=
  let moved := { game with playX := game.playX + 1 }
  if game.mapX + scrollXDim - blockXDim * (panBorder + 1) < moved.playX ∧
      game.mapX + scrollXDim < (2 * game.mazeXDim + 1) * blockXDim - showMin then
    { moved with
      mapX := game.mapX + 1
      display := (game.display.setViewWindow (game.mapX + 1) game.mapY).drawVertLine blocks
        game.maze (scrollXDim - 1) }
  else moved

def moveDown (blocks : Blocks) (game : Game) : Game :=
  let moved := { game with playY := game.playY + 1 }
  if game.mapY + scrollYDim - blockYDim * (panBorder + 1) < moved.playY ∧
      game.mapY + scrollYDim < (2 * game.mazeYDim + 1) * blockYDim - showMin then
    { moved with
      mapY := game.mapY + 1
      display := (game.display.setViewWindow game.mapX (game.mapY + 1)).drawHorizLine blocks
        game.maze (scrollYDim - 1) }
  else moved

def moveLeft (blocks : Blocks) (game : Game) : Game :=
  let moved := { game with playX := game.playX - 1 }
  if moved.playX < game.mapX + blockXDim * panBorder ∧ showMin < game.mapX then
    { moved with
      mapX := game.mapX - 1
      display := (game.display.setViewWindow (game.mapX - 1) game.mapY).drawVertLine blocks
        game.maze 0 }
  else moved

/-- The fruit at the player is eaten before the spaces around are unveiled. -/
def unveilAroundPlayer (blocks : Blocks) (game : Game) : Bool × Game :=
  let x := game.playX / blockXDim
  let y := game.playY / blockYDim
  let fruited := (checkForFruit blocks x y (game.maze, game.display)).2
  let scene := around.foldl (fun scene offset =>
    unveilSpace blocks (x + offset.1) (y + offset.2) scene) fruited
  (checkForWin scene.1 x y, { game with maze := scene.1, display := scene.2 })

/-- All cells under a player at this pixel are open to motion. -/
def stands (maze : Maze) (playX playY : Nat) : Bool :=
  [playX / blockXDim, (playX + blockXDim - 1) / blockXDim].all fun x =>
    [playY / blockYDim, (playY + blockYDim - 1) / blockYDim].all fun y =>
      maze.get x y &&& mazeWall = 0

end Game

inductive GameEvent where
  | moveUp
  | moveRight
  | moveDown
  | moveLeft
  | unveil

/-- A move that is not along open cells is refused. -/
inductive Refusal where
  | wall

namespace Game

def apply (blocks : Blocks) (game : Game) : GameEvent → Game
  | .moveUp => game.moveUp blocks
  | .moveRight => game.moveRight blocks
  | .moveDown => game.moveDown blocks
  | .moveLeft => game.moveLeft blocks
  | .unveil => (game.unveilAroundPlayer blocks).2

def step (blocks : Blocks) (game : Game) (event : GameEvent) : Except Refusal Game :=
  let next := game.apply blocks event
  if stands next.maze next.playX next.playY then .ok next else .error .wall

end Game

end ComputerSystems.Mp2
