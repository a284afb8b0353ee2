import ComputerSystems.Construction.Mp2.Display
import ComputerSystems.Library.Confined

namespace ComputerSystems.Mp2

open Library

abbrev memFenceWidth : Nat := 256

/-- The magic number in the memory fences. -/
def memFenceMagic : UInt8 := 0xF3

/-- The display with signed coordinates. The bytes of the build buffer and its fences are counted
from the end of the lower fence, and their accesses are logged. -/
structure BuildBuffer where
  build : Logged Int UInt8
  saveBuf : Nat → UInt8
  img3Off : Int
  showX : Int
  showY : Int

namespace BuildBuffer

/-- The fences are in front of the buffer and behind it. -/
def fence : Set Int :=
  {place | (-memFenceWidth ≤ place ∧ place < 0) ∨
    (buildBufSize ≤ place ∧ place < buildBufSize + memFenceWidth)}

instance (place : Int) : Decidable (place ∈ fence) :=
  inferInstanceAs (Decidable ((-(memFenceWidth : Int) ≤ place ∧ place < 0) ∨
    ((buildBufSize : Int) ≤ place ∧ place < buildBufSize + memFenceWidth)))

/-- The log starts when `set_mode_X` has filled the fences. -/
def setModeX (bytes : Int → UInt8) (saveBuf : Nat → UInt8) : BuildBuffer where
  build := ⟨fun place => if place ∈ fence then memFenceMagic else bytes place, []⟩
  saveBuf := saveBuf
  img3Off := buildBaseInit
  showX := 0
  showY := 0

/-- The place of a pixel. The shift and the mask of a coordinate are its quotient and its
remainder by four, also below zero. -/
def address (buffer : BuildBuffer) (x y : Int) : Int :=
  buffer.img3Off + x / 4 + y * scrollXWidth + (3 - x % 4) * scrollSize

/-- The copy goes down when the target lies above the source. -/
def copyBytes (source target length : Int) (build : Logged Int UInt8) : Logged Int UInt8 :=
  if source < target then
    forLoop (fun round =>
      let i : Int := length - 1 - round
      Logged.move (source + i) (target + i)) 0 length.toNat build
  else forLoop (fun i => Logged.move (source + i) (target + i)) 0 length.toNat build

def setViewWindow (buffer : BuildBuffer) (scrX scrY : Int) : BuildBuffer :=
  let oldX := buffer.showX
  let oldY := buffer.showY
  let shown := { buffer with showX := scrX, showY := scrY }
  let centred : Int := buildBaseInit - scrX / 4 - scrY * scrollXWidth
  if 0 ≤ buffer.img3Off + scrX / 4 + scrY * scrollXWidth ∧
      buffer.img3Off + 3 * scrollSize + (scrX + scrollXDim - 1) / 4 +
        (scrY + scrollYDim - 1) * scrollXWidth < buildBufSize then shown
  else if scrX ≤ oldX - scrollXDim ∨ oldX + scrollXDim ≤ scrX ∨
      scrY ≤ oldY - scrollYDim ∨ oldY + scrollYDim ≤ scrY then
    { shown with img3Off := centred }
  else
    let startX := if oldX < scrX then scrX else oldX
    let endX := (if oldX < scrX then oldX else scrX) + scrollXDim - 1
    let startY := if oldY < scrY then scrY else oldY
    let endY := (if oldY < scrY then oldY else scrY) + scrollYDim - 1
    let startOff := startX / 4 + startY * scrollXWidth
    let length := endX / 4 + endY * scrollXWidth + 1 - startOff + 3 * scrollSize
    { shown with
      img3Off := centred
      build := copyBytes (buffer.img3Off + startOff) (centred + startOff) length buffer.build }

/-- The line function stands for the callback that `set_mode_X` was given. -/
def drawVertLine (vertLineFn : Int → Int → Nat → UInt8) (buffer : BuildBuffer) (column : Int) :
    BuildBuffer :=
  if column < 0 ∨ scrollXDim ≤ column then buffer
  else
    let x := column + buffer.showX
    let buf := vertLineFn x buffer.showY
    let addr := buffer.img3Off + x / 4 + buffer.showY * scrollXWidth
    let pOff := 3 - x % 4
    { buffer with
      build := (forLoop (fun i (state : Logged Int UInt8 × Int) =>
        (state.1.store (state.2 + pOff * scrollSize) (buf i), state.2 + scrollXWidth))
          0 scrollYDim (buffer.build, addr)).1 }

def drawHorizLine (horizLineFn : Int → Int → Nat → UInt8) (buffer : BuildBuffer) (row : Int) :
    BuildBuffer :=
  if row < 0 ∨ scrollYDim ≤ row then buffer
  else
    let y := row + buffer.showY
    let buf := horizLineFn buffer.showX y
    let addr := buffer.img3Off + buffer.showX / 4 + y * scrollXWidth
    let pOff := 3 - buffer.showX % 4
    { buffer with
      build := (forLoop (fun i (state : Logged Int UInt8 × Int × Int) =>
        let build := state.1.store (state.2.1 + state.2.2 * scrollSize) (buf i)
        if state.2.2 - 1 < 0 then (build, state.2.1 + 1, 3)
        else (build, state.2.1, state.2.2 - 1)) 0 scrollXDim (buffer.build, addr, pOff)).1 }

/-- The part of a block in the window: its upper left pixel, its size, the start of its picture,
and the pixels of the picture between two rows of it. -/
structure Clip where
  posX : Int
  posY : Int
  xRight : Int
  yBottom : Int
  start : Int
  xLeft : Int

/-- A block outside the window is not drawn. -/
def clip (buffer : BuildBuffer) (posX posY : Int) : Option Clip :=
  if posX + blockXDim ≤ buffer.showX ∨ buffer.showX + scrollXDim ≤ posX ∨
      posY + blockYDim ≤ buffer.showY ∨ buffer.showY + scrollYDim ≤ posY then none
  else
    let xLeft := max (buffer.showX - posX) 0
    let xRight := min (buffer.showX + scrollXDim - posX) blockXDim - xLeft
    let yTop := max (buffer.showY - posY) 0
    let yBottom := min (buffer.showY + scrollYDim - posY) blockYDim - yTop
    some ⟨posX + xLeft, posY + yTop, xRight, yBottom, xLeft + yTop * blockXDim,
      blockXDim - xRight⟩

/-- The place in the picture for a pixel of the part. -/
def Clip.index (part : Clip) (dx dy : Nat) : Nat :=
  (part.start + dy * (part.xRight + part.xLeft) + dx).toNat

def drawFullBlock (buffer : BuildBuffer) (posX posY : Int) (blk : Nat → UInt8) : BuildBuffer :=
  match buffer.clip posX posY with
  | none => buffer
  | some part =>
      { buffer with
        build := forLoop (fun dy =>
          forLoop (fun dx => Logged.store (buffer.address (part.posX + dx) (part.posY + dy))
            (blk (part.index dx dy))) 0 part.xRight.toNat) 0 part.yBottom.toNat buffer.build }

/-- One pixel of a refilled block. The byte under it goes to the one place of the save buffer. -/
def refillPixel (place : Int) (slot : Nat) (value : UInt8)
    (state : Logged Int UInt8 × (Nat → UInt8)) : Logged Int UInt8 × (Nat → UInt8) :=
  if value ≠ 0xAA then
    let saved := state.1.load place
    (saved.2.store place value, Function.update state.2 slot saved.1)
  else (state.1, Function.update state.2 slot 0xAA)

/-- The pointer into the save buffer does not move with the pixels. -/
def drawRefillBlock (buffer : BuildBuffer) (posX posY : Int) (mask panel : Nat → UInt8) :
    BuildBuffer :=
  let blk := fun i => if mask i = 1 then panel i else 0xAA
  match buffer.clip posX posY with
  | none => buffer
  | some part =>
      let drawn := forLoop (fun dy =>
        forLoop (fun dx => refillPixel (buffer.address (part.posX + dx) (part.posY + dy))
          part.start.toNat (blk (part.index dx dy))) 0 part.xRight.toNat)
            0 part.yBottom.toNat (buffer.build, buffer.saveBuf)
      { buffer with build := drawn.1, saveBuf := drawn.2 }

end BuildBuffer

/-- One call on the build buffer. -/
inductive BufferCall where
  | setViewWindow (scrX scrY : Int)
  | drawVertLine (column : Int)
  | drawHorizLine (row : Int)
  | drawFullBlock (posX posY : Int) (blk : Nat → UInt8)
  | drawRefillBlock (posX posY : Int) (mask panel : Nat → UInt8)

def BuildBuffer.call (horizLineFn vertLineFn : Int → Int → Nat → UInt8) (buffer : BuildBuffer) :
    BufferCall → BuildBuffer
  | .setViewWindow scrX scrY => buffer.setViewWindow scrX scrY
  | .drawVertLine column => buffer.drawVertLine vertLineFn column
  | .drawHorizLine row => buffer.drawHorizLine horizLineFn row
  | .drawFullBlock posX posY blk => buffer.drawFullBlock posX posY blk
  | .drawRefillBlock posX posY mask panel => buffer.drawRefillBlock posX posY mask panel

end ComputerSystems.Mp2
