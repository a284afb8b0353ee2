import ComputerSystems.Construction.Mp2.Game
import ComputerSystems.Construction.Mp2.MazeArray

namespace ComputerSystems.Mp2

open Library

abbrev blockPlayerUp : Nat := 18
abbrev blockPlayerMaskUp : Nat := 22

inductive Dir where
  | up
  | right
  | down
  | left
  | stop
  deriving DecidableEq

namespace Dir

/-- The value in the enumeration. -/
def code : Dir → Nat
  | .up => 0
  | .right => 1
  | .down => 2
  | .left => 3
  | .stop => 4

def isOpposite : Dir → Dir → Bool
  | .up, .down => true
  | .down, .up => true
  | .left, .right => true
  | .right, .left => true
  | _, _ => false

end Dir

/-- The entry for `DIR_STOP` lies behind the array, so its value is a parameter. -/
def findOpenDirections (maze : Maze) (x y : Int) (behind : Bool) : Dir → Bool
  | .up => maze.cells (maze.place x (y - 1)).toNat &&& mazeWall = 0
  | .right => maze.cells (maze.place (x + 1) y).toNat &&& mazeWall = 0
  | .down => maze.cells (maze.place x (y + 1)).toNat &&& mazeWall = 0
  | .left => maze.cells (maze.place (x - 1) y).toNat &&& mazeWall = 0
  | .stop => behind

namespace Display

/-- A block is drawn in the shape of its mask. The bytes that it saves are never used. -/
def drawRefillBlock (display : Display) (posX posY : Nat) (mask panel : Nat → UInt8) : Display :=
  let blk := fun i => if mask i = 1 then panel i else 0xAA
  if posX + blockXDim ≤ display.showX ∨ display.showX + scrollXDim ≤ posX ∨
      posY + blockYDim ≤ display.showY ∨ display.showY + scrollYDim ≤ posY then display
  else
    let xLeft := display.showX - posX
    let xRight := min (display.showX + scrollXDim - posX) blockXDim - xLeft
    let xSkip := blockXDim - xRight
    let yTop := display.showY - posY
    let yBottom := min (display.showY + scrollYDim - posY) blockYDim - yTop
    let start := xLeft + yTop * blockXDim
    { display with
      build := forLoop (fun dy =>
        forLoop (fun dx build =>
          let x := posX + xLeft + dx
          let y := posY + yTop + dy
          let value := blk (start + dy * (xRight + xSkip) + dx)
          if value ≠ 0xAA then
            Function.update build (display.img3Off + (x / 4 : Nat) + (y * scrollXWidth : Nat) +
              ((3 - x % 4) * scrollSize : Nat)) value
          else build) 0 xRight) 0 yBottom display.build }

end Display

namespace Game

def drawBlock (blocks : Blocks) (posX posY x y : Nat) (game : Game) : Game :=
  { game with display := game.display.drawFullBlock posX posY (blocks (findBlock game.maze x y)) }

def drawPlayer (blocks : Blocks) (lastDir : Dir) (game : Game) : Game :=
  { game with
    display := game.display.drawRefillBlock game.playX game.playY
      (blocks (blockPlayerMaskUp + lastDir.code)) (blocks (blockPlayerUp + lastDir.code)) }

/-- The spaces around another position are unveiled, and the player stays. -/
def unveilAt (blocks : Blocks) (playX playY : Nat) (game : Game) : Game :=
  let unveiled := ({ game with playX := playX, playY := playY }.unveilAroundPlayer blocks).2
  { unveiled with playX := game.playX, playY := game.playY }

/-- One pixel in a direction. The path behind the player is drawn again. -/
def go (blocks : Blocks) (game : Game) : Dir → Game
  | .up =>
      let moved := game.moveUp blocks
      moved.drawBlock blocks moved.playX ((moved.playY / blockYDim + 1) * blockYDim)
        (moved.playX / blockXDim) (moved.playY / blockYDim + 1)
  | .right =>
      let moved := game.moveRight blocks
      moved.drawBlock blocks (moved.playX / blockXDim * blockXDim) moved.playY
        (moved.playX / blockXDim) (moved.playY / blockYDim)
  | .down =>
      let moved := game.moveDown blocks
      moved.drawBlock blocks moved.playX (moved.playY / blockYDim * blockYDim)
        (moved.playX / blockXDim) (moved.playY / blockYDim)
  | .left =>
      let moved := game.moveLeft blocks
      moved.drawBlock blocks ((moved.playX / blockXDim + 1) * blockXDim) moved.playY
        (moved.playX / blockXDim + 1) (moved.playY / blockYDim)
  | .stop => game

/-- The fruit is reached when the player is half way on it. -/
def unveilAhead (blocks : Blocks) (game : Game) : Dir → Game
  | .up => game.unveilAt blocks game.playX (game.playY + blockYDim / 2)
  | .left => game.unveilAt blocks (game.playX + blockXDim / 2) game.playY
  | _ => game.unveilAt blocks game.playX game.playY

end Game

/-- The game with the moves that remain between two squares and the directions of motion. -/
structure Play where
  game : Game
  moveCnt : Int
  lastDir : Dir
  dir : Dir
  gotoNextLevel : Bool

/-- The direction that the keyboard and the controller ask for, and the value behind the array of
open directions. -/
structure Request where
  nextDir : Dir
  behind : Bool

namespace Play

/-- The beginning of a level. -/
def start (blocks : Blocks) (game : Game) : Play :=
  let placed := { game with playX := blockXDim, playY := blockYDim }
  let drawn := (placed.unveilAroundPlayer blocks).2.drawPlayer blocks .up
  { game := drawn.drawBlock blocks drawn.playX drawn.playY (drawn.playX / blockXDim)
      (drawn.playY / blockYDim)
    moveCnt := 0
    lastDir := .up
    dir := .stop
    gotoNextLevel := false }

/-- A turn to the opposite direction needs no new square. -/
def turnBack (nextDir : Dir) (play : Play) : Play :=
  if nextDir ≠ play.dir ∧ play.dir.isOpposite nextDir then
    { play with
      moveCnt := if 0 < play.moveCnt then
          if play.dir = .up ∨ play.dir = .down then blockYDim - play.moveCnt
          else blockXDim - play.moveCnt
        else play.moveCnt
      dir := nextDir }
  else play

/-- At a new square the player may turn, and stops at a wall. -/
def newSquare (blocks : Blocks) (request : Request) (play : Play) : Play :=
  let unveiled := play.game.unveilAroundPlayer blocks
  if unveiled.1 then { play with game := unveiled.2, gotoNextLevel := true }
  else
    let isOpen := findOpenDirections unveiled.2.maze (play.game.playX / blockXDim : Nat)
      (play.game.playY / blockYDim : Nat) request.behind
    let dir := if isOpen request.nextDir then request.nextDir else play.dir
    let arrived := { play with game := unveiled.2, dir := dir }
    if dir = .stop then arrived
    else if ¬ isOpen dir then { arrived with dir := .stop }
    else if dir = .up ∨ dir = .down then { arrived with moveCnt := blockYDim }
    else { arrived with moveCnt := blockXDim }

def move (blocks : Blocks) (play : Play) : Play :=
  if play.dir = .stop then play
  else
    let gone := play.game.go blocks play.dir
    { play with
      game := (gone.unveilAhead blocks play.dir).drawPlayer blocks play.dir
      lastDir := play.dir
      moveCnt := play.moveCnt - 1 }

/-- One tick of the inner loop of `rtc_thread`. No tick follows a won level. -/
def tick (blocks : Blocks) (play : Play) (request : Request) : Except Unit Play :=
  if play.gotoNextLevel then .error ()
  else
    let turned := play.turnBack request.nextDir
    let ready := if turned.moveCnt = 0 then turned.newSquare blocks request else turned
    if ready.gotoNextLevel then .ok ready else .ok (ready.move blocks)

end Play

end ComputerSystems.Mp2
