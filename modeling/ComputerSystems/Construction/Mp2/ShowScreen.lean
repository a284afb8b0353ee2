import ComputerSystems.Construction.Mp2.BuildBuffer

namespace ComputerSystems.Mp2

open Library

/-- The video card in mode X: the bytes of its planes by plane and offset with a log of their
writes, the sequencer's map mask, and the registers of the CRT controller. The static variable
`target_img` is the offset of the displayed image. -/
structure Video where
  memory : Logged (Nat × Nat) UInt8
  mapMask : Nat
  crtc : Nat → Nat
  targetImg : Nat

namespace Video

/-- The map mask is the high byte of the word. The low byte selects its register. -/
def setWriteMask (maskHiBits : Nat) (video : Video) : Video :=
  { video with mapMask := maskHiBits / 256 }

/-- A byte goes to each plane that the map mask enables. -/
def store (offset : Nat) (value : UInt8) (video : Video) : Video :=
  { video with
    memory := forLoop (fun plane memory =>
      if video.mapMask.testBit plane then memory.store (plane, offset) value else memory)
        0 4 video.memory }

/-- The word for port `0x03D4` has the register in its low byte. -/
def outw (value : Nat) (video : Video) : Video :=
  { video with crtc := Function.update video.crtc (value % 256) (value / 256) }

/-- The copy of one plane goes from `img` in the build buffer to `scr_addr` in the video memory. -/
def copyImage (build : Int → UInt8) (img : Int) (scrAddr : Nat) (video : Video) : Video :=
  forLoop (fun i => store (scrAddr + i) (build (img + i))) 0 scrollSize video

/-- The offset of the image that the CRT controller displays. -/
def startAddress (video : Video) : Nat := video.crtc 0x0C * 256 + video.crtc 0x0D

end Video

def BuildBuffer.showScreen (buffer : BuildBuffer) (video : Video) : Video :=
  let pOff := 3 - buffer.showX % 4
  let target := { video with targetImg := 0x4000 }
  let addr := buffer.img3Off + buffer.showX / 4 + buffer.showY * scrollXWidth
  let copied := forLoop (fun i video =>
    (video.setWriteMask (1 <<< (i + 8))).copyImage buffer.build.memory
      (addr + (pOff - i + 4) % 4 * scrollSize + if pOff < i then 1 else 0) video.targetImg)
        0 4 target
  (copied.outw (copied.targetImg &&& 0xFF00 ||| 0x0C)).outw
    ((copied.targetImg &&& 0x00FF) <<< 8 ||| 0x0D)

end ComputerSystems.Mp2
