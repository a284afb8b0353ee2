import ComputerSystems.Construction.Mp2.Display
import ComputerSystems.Library.Confined

namespace ComputerSystems.Mp2

open Library

/-- The bytes of the maze array: one more than the largest index of the largest maze. -/
abbrev mazeSize : Nat := 2 * mazeMaxXDim * (2 * mazeMaxYDim + 3) + 1

namespace Maze

/-- `MAZE_INDEX` with its signed arithmetic. -/
def place (maze : Maze) (x y : Int) : Int := x + (y + 1) * maze.xDim * 2

/-- The maze array with a log of its accesses. -/
def array (maze : Maze) (touched : List Int) : Logged Int UInt8 :=
  ⟨fun place => maze.cells place.toNat, touched⟩

end Maze

/-- The pattern of the walls around a location. -/
def wallPattern (maze : Maze) (x y : Int) (array : Logged Int UInt8) : Nat × Logged Int UInt8 :=
  let bit (cell : UInt8) (weight : Nat) : Nat := if cell &&& mazeWall ≠ 0 then weight else 0
  let up := array.load (maze.place x (y - 1))
  let right := up.2.load (maze.place (x + 1) y)
  let down := right.2.load (maze.place x (y + 1))
  let left := down.2.load (maze.place (x - 1) y)
  (bit up.1 1 ||| bit right.1 2 ||| bit down.1 4 ||| bit left.1 8, left.2)

/-- `find_block` with its accesses to the maze array, each at its own coordinates. -/
def findBlockIn (maze : Maze) (x y : Int) (array : Logged Int UInt8) : Nat × Logged Int UInt8 :=
  let fruit := array.load (maze.place x y)
  let fnum := ((fruit.1 &&& mazeFruit) / mazeFruit1).toNat
  let exit := if maze.nFruits = 0 then fruit.2.load (maze.place x y) else (0, fruit.2)
  if exit.1 &&& mazeExit ≠ 0 then (blockExit, exit.2)
  else
    let reach := exit.2.load (maze.place x y)
    if reach.1 &&& mazeReach = 0 then
      (if fnum ≠ 0 then blockFruitShadow else blockShadow, reach.2)
    else if fnum ≠ 0 then (blockFruit1 + fnum - 1, reach.2)
    else
      let wall := reach.2.load (maze.place x y)
      if wall.1 &&& mazeWall = 0 then (blockEmpty, wall.2) else wallPattern maze x y wall.2

end ComputerSystems.Mp2
