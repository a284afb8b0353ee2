import ComputerSystems.Construction.Mp2.Maze

namespace ComputerSystems.Mp2

/-- The places in the worm phase where it draws random numbers: the choice of a wall, the choice of
a direction, and its end. -/
inductive WormPoint where
  | picking (worm : Worm)
  | moving (worm : Worm)
  | finished (worm : Worm)

namespace WormPoint

def worm : WormPoint → Worm
  | .picking worm => worm
  | .moving worm => worm
  | .finished worm => worm

/-- All of the maze is filled with walls. -/
def start (maze : Maze) : WormPoint :=
  .picking ⟨{ maze with cells := fun _ => mazeWall }, (maze.xDim * maze.yDim : Nat), 0, 0, 0, 0⟩

/-- One random point, or one move of the worm. -/
def step (random : Nat → Nat) : WormPoint → WormPoint
  | .picking worm =>
      let x := random worm.drawn % worm.maze.xDim * 2 + 1
      let y := random (worm.drawn + 1) % worm.maze.yDim * 2 + 1
      if worm.maze.get x y &&& mazeWall ≠ 0 then
        .moving
          { maze := worm.maze.put x y mazeNone
            remaining := worm.remaining - 1
            x := x
            y := y
            prefDir := random (worm.drawn + 2) % 4
            drawn := worm.drawn + 3 }
      else .picking { worm with x := x, y := y, drawn := worm.drawn + 2 }
  | .moving worm =>
      let dir := worm.dir random
      if (dir + 4 - worm.prefDir) % 4 = 2 then
        let done := { worm with drawn := worm.drawn + 1 }
        if 0 < worm.remaining then .picking done else .finished done
      else .moving (worm.move dir)
  | .finished worm => .finished worm

end WormPoint

end ComputerSystems.Mp2
