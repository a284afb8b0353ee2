import ComputerSystems.Construction.Mp2.Display

namespace ComputerSystems.Mp2

/-- The result is the number of fruits with the new scene. The new fruit is drawn, and the exit is
erased when it is the only one. -/
def addAFruit (blocks : Blocks) (random : Nat → Nat) (fuel : Nat) (scene : Maze × Display) :
    Option (Int × Maze × Display) :=
  let maze := scene.1
  (pick random maze (fun cell => cell &&& mazeFruit = 0) fuel 0).map fun (x, y, drawn) =>
    let fruit := UInt8.ofNat (random drawn % numFruitTypes + 1) * mazeFruit1
    let fruited := { maze.put x y (maze.get x y ||| fruit) with nFruits := maze.nFruits + 1 }
    let shown := scene.2.drawFullBlock (x * blockXDim) (y * blockYDim)
      (blocks (findBlock fruited x y))
    let exited := if fruited.nFruits = 1 then
      shown.drawFullBlock (fruited.exitX * blockXDim) (fruited.exitY * blockYDim)
        (blocks (findBlock fruited fruited.exitX fruited.exitY)) else shown
    (fruited.nFruits, fruited, exited)

/-- `check_for_fruit` with its signed coordinates. -/
def checkForFruitAt (blocks : Blocks) (x y : Int) (scene : Maze × Display) :
    Nat × Maze × Display :=
  if x < 0 ∨ y < 0 then (0, scene) else checkForFruit blocks x.toNat y.toNat scene

/-- `check_for_win` with its signed coordinates. -/
def checkForWinAt (maze : Maze) (x y : Int) : Bool :=
  0 ≤ x && 0 ≤ y && checkForWin maze x.toNat y.toNat

/-- The calls that change a maze after its generation. A call that adds a fruit has its own random
numbers. -/
inductive FruitCall where
  | addAFruit (random : Nat → Nat) (fuel : Nat)
  | checkForFruit (x y : Int)
  | unveilSpace (x y : Int)

/-- A fruit that finds no place is refused, because its loop does not end. -/
def fruitStep (blocks : Blocks) (scene : Maze × Display) : FruitCall → Except Unit (Maze × Display)
  | .addAFruit random fuel =>
      match addAFruit blocks random fuel scene with
      | some added => .ok added.2
      | none => .error ()
  | .checkForFruit x y => .ok (checkForFruitAt blocks x y scene).2
  | .unveilSpace x y => .ok (unveilSpace blocks x y scene)

end ComputerSystems.Mp2
