import ComputerSystems.Construction.Mp2.Maze
import ComputerSystems.Library.Loop

namespace ComputerSystems.Mp2

open Library

abbrev blockXDim : Nat := 12
abbrev blockYDim : Nat := 12
abbrev blockEmpty : Nat := 16
abbrev blockShadow : Nat := 17
abbrev blockFruit1 : Nat := 26
abbrev blockFruitShadow : Nat := 33
abbrev blockExit : Nat := 34

abbrev scrollXDim : Nat := 320
abbrev scrollYDim : Nat := 182
abbrev scrollXWidth : Nat := 80
abbrev scrollSize : Nat := 14560
abbrev buildBufSize : Nat := 78241
abbrev buildBaseInit : Nat := 10000

/-- The block pictures with one byte for each pixel, row by row. -/
abbrev Blocks := Nat → Nat → UInt8

/-- The number of the block picture for a location of the maze. The neighbours are found from the
index of the location. -/
def findBlock (maze : Maze) (x y : Nat) : Nat :=
  let cur := maze.mazeIndex x y
  let cell := maze.cells cur
  let fnum := ((cell &&& mazeFruit) / mazeFruit1).toNat
  let bit (place weight : Nat) : Nat := if maze.cells place &&& mazeWall ≠ 0 then weight else 0
  if maze.nFruits = 0 ∧ cell &&& mazeExit ≠ 0 then blockExit
  else if cell &&& mazeReach = 0 then if fnum ≠ 0 then blockFruitShadow else blockShadow
  else if fnum ≠ 0 then blockFruit1 + fnum - 1
  else if cell &&& mazeWall = 0 then blockEmpty
  else bit (cur - 2 * maze.xDim) 1 ||| bit (cur + 1) 2 ||| bit (cur + 2 * maze.xDim) 4 |||
    bit (cur - 1) 8

/-- The state of the loops that fill a line buffer: the pixel of the line, the pixel in the block,
the block, and the buffer. -/
structure Fill where
  idx : Nat
  sub : Nat
  map : Nat
  buf : Nat → UInt8

/-- A line is filled block by block, and each block pixel by pixel. -/
def fillBuffer (length blockDim : Nat) (pixel : Nat → Nat → UInt8) : Fill → Fill :=
  whileLoop (fun fill => fill.idx < length)
    (fun fill =>
      let filled := whileLoop (fun fill => fill.idx < length && fill.sub < blockDim)
        (fun fill => { fill with
          idx := fill.idx + 1
          sub := fill.sub + 1
          buf := Function.update fill.buf fill.idx (pixel fill.map fill.sub) })
        blockDim fill
      { filled with map := filled.map + 1, sub := 0 })
    length

def fillHorizBuffer (blocks : Blocks) (maze : Maze) (x y : Nat) : Nat → UInt8 :=
  let mapX := x / blockXDim
  let mapY := y / blockYDim
  let subX := x - mapX * blockXDim
  let subY := y - mapY * blockYDim
  (fillBuffer scrollXDim blockXDim
    (fun map sub => blocks (findBlock maze map mapY) (subY * blockXDim + sub))
    ⟨0, subX, mapX, fun _ => 0⟩).buf

def fillVertBuffer (blocks : Blocks) (maze : Maze) (x y : Nat) : Nat → UInt8 :=
  let mapX := x / blockXDim
  let mapY := y / blockYDim
  let subX := x - mapX * blockXDim
  let subY := y - mapY * blockYDim
  (fillBuffer scrollYDim blockYDim
    (fun map sub => blocks (findBlock maze mapX map) (sub * blockXDim + subX))
    ⟨0, subY, mapY, fun _ => 0⟩).buf

/-- The build buffer by the distance from its start behind the memory fence, the offset `img3_off`
of `img3` in it, and the logical view window. -/
structure Display where
  build : Int → UInt8
  img3Off : Int
  showX : Nat
  showY : Nat

namespace Display

/-- The copy goes down when the target lies above the source. -/
def copyBytes (source target : Int) (length : Nat) (build : Int → UInt8) : Int → UInt8 :=
  if source < target then
    forLoop (fun round build =>
      let i : Int := (length - 1 - round : Nat)
      Function.update build (target + i) (build (source + i))) 0 length build
  else
    forLoop (fun i build => Function.update build (target + i) (build (source + i)))
      0 length build

/-- The new window stays where it is in the buffer, moves without its picture, or moves with the
part of the picture that stays visible. -/
def setViewWindow (display : Display) (scrX scrY : Nat) : Display :=
  let oldX := display.showX
  let oldY := display.showY
  let shown := { display with showX := scrX, showY := scrY }
  let centred : Int := buildBaseInit - (scrX / 4 : Nat) - (scrY * scrollXWidth : Nat)
  if 0 ≤ display.img3Off + (scrX / 4 : Nat) + (scrY * scrollXWidth : Nat) ∧
      display.img3Off + 3 * scrollSize + ((scrX + scrollXDim - 1) / 4 : Nat) +
        ((scrY + scrollYDim - 1) * scrollXWidth : Nat) < buildBufSize then shown
  else if scrX + scrollXDim ≤ oldX ∨ oldX + scrollXDim ≤ scrX ∨
      scrY + scrollYDim ≤ oldY ∨ oldY + scrollYDim ≤ scrY then
    { shown with img3Off := centred }
  else
    let startX := if oldX < scrX then scrX else oldX
    let endX := (if oldX < scrX then oldX else scrX) + scrollXDim - 1
    let startY := if oldY < scrY then scrY else oldY
    let endY := (if oldY < scrY then oldY else scrY) + scrollYDim - 1
    let startOff := startX / 4 + startY * scrollXWidth
    let length := endX / 4 + endY * scrollXWidth + 1 + 3 * scrollSize - startOff
    { shown with
      img3Off := centred
      build := copyBytes (display.img3Off + startOff) (centred + startOff) length display.build }

/-- A vertical line goes down one plane. -/
def drawVertLine (display : Display) (blocks : Blocks) (maze : Maze) (column : Nat) : Display :=
  if scrollXDim ≤ column then display
  else
    let x := column + display.showX
    let buf := fillVertBuffer blocks maze x display.showY
    let addr : Int := display.img3Off + (x / 4 : Nat) + (display.showY * scrollXWidth : Nat)
    let pOff := 3 - x % 4
    { display with
      build := (forLoop (fun i (state : (Int → UInt8) × Int) =>
        (Function.update state.1 (state.2 + (pOff * scrollSize : Nat)) (buf i),
          state.2 + scrollXWidth)) 0 scrollYDim (display.build, addr)).1 }

/-- A horizontal line goes through the planes in turn. -/
def drawHorizLine (display : Display) (blocks : Blocks) (maze : Maze) (row : Nat) : Display :=
  if scrollYDim ≤ row then display
  else
    let y := row + display.showY
    let buf := fillHorizBuffer blocks maze display.showX y
    let addr : Int := display.img3Off + (display.showX / 4 : Nat) + (y * scrollXWidth : Nat)
    let pOff := 3 - display.showX % 4
    { display with
      build := (forLoop (fun i (state : (Int → UInt8) × Int × Nat) =>
        let build := Function.update state.1 (state.2.1 + (state.2.2 * scrollSize : Nat)) (buf i)
        if state.2.2 = 0 then (build, state.2.1 + 1, 3)
        else (build, state.2.1, state.2.2 - 1)) 0 scrollXDim (display.build, addr, pOff)).1 }

/-- A block is clipped to the window. The picture skips the clipped pixels of each row. -/
def drawFullBlock (display : Display) (posX posY : Nat) (blk : Nat → UInt8) : Display :=
  if posX + blockXDim ≤ display.showX ∨ display.showX + scrollXDim ≤ posX ∨
      posY + blockYDim ≤ display.showY ∨ display.showY + scrollYDim ≤ posY then display
  else
    let xLeft := display.showX - posX
    let xRight := min (display.showX + scrollXDim - posX) blockXDim - xLeft
    let xSkip := blockXDim - xRight
    let yTop := display.showY - posY
    let yBottom := min (display.showY + scrollYDim - posY) blockYDim - yTop
    let start := xLeft + yTop * blockXDim
    { display with
      build := forLoop (fun dy =>
        forLoop (fun dx build =>
          let x := posX + xLeft + dx
          let y := posY + yTop + dy
          Function.update build (display.img3Off + (x / 4 : Nat) + (y * scrollXWidth : Nat) +
            ((3 - x % 4) * scrollSize : Nat)) (blk (start + dy * (xRight + xSkip) + dx)))
          0 xRight) 0 yBottom display.build }

end Display

/-- The location is marked as reached and drawn again. -/
def unveilSpace (blocks : Blocks) (x y : Int) (scene : Maze × Display) : Maze × Display :=
  let maze := scene.1
  if x < 0 ∨ 2 * maze.xDim < x ∨ y < 0 ∨ 2 * maze.yDim < y then scene
  else if maze.get x.toNat y.toNat &&& mazeReach ≠ 0 then scene
  else
    let unveiled := maze.put x.toNat y.toNat (maze.get x.toNat y.toNat ||| mazeReach)
    (unveiled, scene.2.drawFullBlock (x.toNat * blockXDim) (y.toNat * blockYDim)
      (blocks (findBlock unveiled x.toNat y.toNat)))

/-- The fruit at the location is eaten, and the exit is drawn after the last one. -/
def checkForFruit (blocks : Blocks) (x y : Nat) (scene : Maze × Display) :
    Nat × Maze × Display :=
  let maze := scene.1
  if 2 * maze.xDim ≤ x ∨ 2 * maze.yDim ≤ y then (0, scene)
  else
    let fnum := ((maze.get x y &&& mazeFruit) / mazeFruit1).toNat
    if fnum ≠ 0 then
      let eaten := { maze.put x y (maze.get x y &&& ~~~mazeFruit) with
        nFruits := maze.nFruits - 1 }
      let exited := if eaten.nFruits = 0 then
        scene.2.drawFullBlock (eaten.exitX * blockXDim) (eaten.exitY * blockYDim)
          (blocks (findBlock eaten eaten.exitX eaten.exitY)) else scene.2
      (fnum, eaten, exited.drawFullBlock (x * blockXDim) (y * blockYDim)
        (blocks (findBlock eaten x y)))
    else (0, scene)

def checkForWin (maze : Maze) (x y : Nat) : Bool :=
  x < 2 * maze.xDim && y < 2 * maze.yDim && maze.nFruits = 0 &&
    maze.get x y &&& mazeExit ≠ 0

end ComputerSystems.Mp2
