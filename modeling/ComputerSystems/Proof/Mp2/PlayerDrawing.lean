import ComputerSystems.Construction.Mp2.GameLoop
import ComputerSystems.Proof.Mp2.BlockDrawing
import ComputerSystems.Proof.Mp2.BuildBufferDisplay
import ComputerSystems.Proof.Mp2.ViewWindow

namespace ComputerSystems.Mp2

open Library

/-- Both models draw the same pixels of a masked block. -/
theorem Displays.drawRefillBlock {buffer : BuildBuffer} {display : Display}
    (displays : Displays buffer display) (posX posY : Nat) (mask panel : Nat → UInt8) :
    Displays (buffer.drawRefillBlock posX posY mask panel)
      (display.drawRefillBlock posX posY mask panel) := by
  unfold BuildBuffer.drawRefillBlock Display.drawRefillBlock
  by_cases hidden : posX + blockXDim ≤ display.showX ∨ display.showX + scrollXDim ≤ posX ∨
      posY + blockYDim ≤ display.showY ∨ display.showY + scrollYDim ≤ posY
  · rw [displays.clip_hidden hidden, if_pos hidden]
    exact displays
  rw [displays.clip_shown hidden, if_neg hidden]
  refine ⟨?_, displays.img3Off, displays.showX, displays.showY⟩
  dsimp only
  rw [Int.toNat_natCast, Int.toNat_natCast, Int.toNat_natCast]
  apply forLoop_relates fun (state : Logged Int UInt8 × (Nat → UInt8)) memory =>
    state.1.memory = memory
  · exact displays.build
  · rintro dy rows _ row rfl
    apply forLoop_relates fun (state : Logged Int UInt8 × (Nat → UInt8)) memory =>
      state.1.memory = memory
    · rfl
    · rintro dx pixels _ column rfl
      rw [index_natCast, ← Nat.cast_add, ← Nat.cast_add, address_eq displays.img3Off,
        BuildBuffer.refillPixel]
      dsimp only
      split_ifs <;> rfl

namespace Display

theorem buffer_displays (display : Display) : Displays display.buffer display :=
  ⟨rfl, rfl, rfl, rfl⟩

def color (display : Display) (pixel : Nat × Nat) : UInt8 :=
  display.build (display.address pixel)

/-- The pixels of a block at a position. -/
def square (posX posY : Nat) : Set (Nat × Nat) :=
  {pixel | (posX ≤ pixel.1 ∧ pixel.1 < posX + blockXDim) ∧
    posY ≤ pixel.2 ∧ pixel.2 < posY + blockYDim}

def squareIndex (posX posY : Nat) (pixel : Nat × Nat) : Nat :=
  (pixel.2 - posY) * blockXDim + (pixel.1 - posX)

/-- A drawing gives its pixels in the window the colors of a picture and leaves the others. -/
structure Recolors (before after : Display) (drawn : Set (Nat × Nat))
    (picture : Nat × Nat → UInt8) : Prop where
  img3Off : after.img3Off = before.img3Off
  showX : after.showX = before.showX
  showY : after.showY = before.showY
  shows : ∀ pixel ∈ before.window, pixel ∈ drawn → after.color pixel = picture pixel
  frame : ∀ pixel ∈ before.window, pixel ∉ drawn → after.color pixel = before.color pixel

variable {before after display : Display} {drawn : Set (Nat × Nat)}
variable {picture : Nat × Nat → UInt8}

theorem Draws.recolors (draws : Draws before after drawn picture) (within : drawn ⊆ before.window) :
    Recolors before after drawn picture where
  img3Off := draws.img3Off
  showX := draws.showX
  showY := draws.showY
  shows pixel _ member := by
    rw [color, draws.address_eq]
    exact draws.paints.shows pixel member
  frame pixel shown apart := by
    rw [color, draws.address_eq]
    refine draws.paints.frame (before.address pixel) fun other member same => apart ?_
    rwa [← before.address_injOn (within member) shown same]

theorem Recolors.congr {region : Set (Nat × Nat)} {other : Nat × Nat → UInt8}
    (recolors : Recolors before after drawn picture)
    (same : ∀ pixel, pixel ∈ drawn ↔ pixel ∈ region)
    (colors : ∀ pixel ∈ region, picture pixel = other pixel) :
    Recolors before after region other := by
  obtain rfl : drawn = region := Set.ext same
  exact ⟨recolors.img3Off, recolors.showX, recolors.showY, fun pixel shown member =>
    (recolors.shows pixel shown member).trans (colors pixel member), recolors.frame⟩

/-- A drawing with signed coordinates is one of the display. -/
theorem recolors_of_redraws {redrawn : BuildBuffer} {visible : Set (Int × Int)}
    {signed : Int × Int → UInt8} (displays : Displays redrawn after)
    (redraws : BuildBuffer.Redraws before.buffer redrawn visible signed)
    (img3Off : after.img3Off = before.img3Off) (showX : after.showX = before.showX)
    (showY : after.showY = before.showY)
    (drawn_iff : ∀ pixel : Nat × Nat, pixel ∈ before.window →
      (pixel ∈ drawn ↔ ((pixel.1 : Int), (pixel.2 : Int)) ∈ visible))
    (same : ∀ pixel ∈ drawn, signed ((pixel.1 : Int), (pixel.2 : Int)) = picture pixel) :
    Recolors before after drawn picture := by
  have colors {buffer : BuildBuffer} {display : Display} (displays : Displays buffer display)
      (pixel : Nat × Nat) : buffer.color ((pixel.1 : Int), (pixel.2 : Int)) =
        display.color pixel := by
    rw [BuildBuffer.color, displays.build, Displays.address_eq displays.img3Off]
    rfl
  have window (pixel : Nat × Nat) (shown : pixel ∈ before.window) :
      ((pixel.1 : Int), (pixel.2 : Int)) ∈ before.buffer.window := by
    obtain ⟨⟨left, right⟩, top, bottom⟩ := shown
    exact ⟨⟨Int.ofNat_le.2 left, by dsimp only [buffer]; omega⟩, Int.ofNat_le.2 top, by
      dsimp only [buffer]
      omega⟩
  refine ⟨img3Off, showX, showY, fun pixel shown member => ?_, fun pixel shown apart => ?_⟩
  · rw [← colors displays, ← same pixel member]
    exact redraws.shows _ ((drawn_iff pixel shown).1 member)
  · rw [← colors displays, ← colors before.buffer_displays]
    exact redraws.frame _ (window pixel shown) fun member =>
      apart ((drawn_iff pixel shown).2 member)

theorem mem_visible {posX posY : Nat} {pixel : Nat × Nat} (shown : pixel ∈ display.window) :
    ((pixel.1 : Int), (pixel.2 : Int)) ∈ display.buffer.visible posX posY ↔
      pixel ∈ square posX posY := by
  obtain ⟨⟨left, right⟩, top, bottom⟩ := shown
  simp only [BuildBuffer.visible, BuildBuffer.window, BuildBuffer.block, square, buffer,
    Set.mem_inter_iff, Set.mem_ofPred_eq]
  dsimp only [blockXDim, blockYDim, scrollXDim, scrollYDim] at *
  omega

theorem blockIndex_eq {posX posY : Nat} {pixel : Nat × Nat} (member : pixel ∈ square posX posY) :
    BuildBuffer.blockIndex posX posY ((pixel.1 : Int), (pixel.2 : Int)) =
      squareIndex posX posY pixel := by
  obtain ⟨⟨left, right⟩, top, bottom⟩ := member
  rw [BuildBuffer.blockIndex, squareIndex]
  dsimp only [blockXDim, blockYDim] at *
  omega

/-- The player is drawn in the shape of its mask. -/
theorem drawRefillBlock_recolors (display : Display) (posX posY : Nat) (mask panel : Nat → UInt8) :
    Recolors display (display.drawRefillBlock posX posY mask panel)
      {pixel | pixel ∈ square posX posY ∧
        BuildBuffer.refillValue mask panel (squareIndex posX posY pixel) ≠ 0xAA}
      fun pixel => BuildBuffer.refillValue mask panel (squareIndex posX posY pixel) := by
  have displays := display.buffer_displays.drawRefillBlock posX posY mask panel
  refine recolors_of_redraws displays
    (display.buffer.drawRefillBlock_redraws posX posY mask panel) ?_ ?_ ?_ ?_ ?_
  · unfold drawRefillBlock
    dsimp only
    split_ifs <;> rfl
  · unfold drawRefillBlock
    dsimp only
    split_ifs <;> rfl
  · unfold drawRefillBlock
    dsimp only
    split_ifs <;> rfl
  · intro pixel shown
    rw [Set.mem_inter_iff, mem_visible shown, Set.mem_ofPred_eq, Set.mem_ofPred_eq]
    exact and_congr_right fun member => by rw [blockIndex_eq member]
  · rintro pixel ⟨member, _⟩
    rw [blockIndex_eq member]

/-- A block anywhere is drawn where the window shows it. -/
theorem drawFullBlock_recolors (display : Display) (posX posY : Nat) (blk : Nat → UInt8) :
    Recolors display (display.drawFullBlock posX posY blk) (square posX posY)
      fun pixel => blk (squareIndex posX posY pixel) := by
  have displays := display.buffer_displays.drawFullBlock posX posY blk
  refine recolors_of_redraws displays (display.buffer.drawFullBlock_redraws posX posY blk)
    ?_ ?_ ?_ ?_ ?_
  · unfold drawFullBlock
    split_ifs <;> rfl
  · unfold drawFullBlock
    split_ifs <;> rfl
  · unfold drawFullBlock
    split_ifs <;> rfl
  · exact fun pixel shown => (mem_visible shown).symm
  · intro pixel member
    rw [blockIndex_eq member]

end Display

end ComputerSystems.Mp2
