import ComputerSystems.Construction.Mp2.BuildBuffer

namespace ComputerSystems.Mp2

open Library

/-- A display with natural coordinates is the build buffer without its log. -/
structure Displays (buffer : BuildBuffer) (display : Display) : Prop where
  build : buffer.build.memory = display.build
  img3Off : buffer.img3Off = display.img3Off
  showX : buffer.showX = display.showX
  showY : buffer.showY = display.showY

namespace Displays
variable {buffer : BuildBuffer} {display : Display}

theorem copyBytes_memory (source target : Int) (length : Nat) (build : Logged Int UInt8) :
    (BuildBuffer.copyBytes source target length build).memory =
      Display.copyBytes source target length build.memory := by
  unfold BuildBuffer.copyBytes Display.copyBytes
  rw [Int.toNat_natCast]
  split
  · apply forLoop_relates fun (logged : Logged Int UInt8) memory => logged.memory = memory
    · rfl
    · rintro done logged _ early rfl
      have place : (length : Int) - 1 - (0 + done : Nat) = (length - 1 - (0 + done) : Nat) := by
        omega
      dsimp only
      rw [place]
      rfl
  · apply forLoop_relates fun (logged : Logged Int UInt8) memory => logged.memory = memory
    · rfl
    · rintro done logged _ early rfl
      rfl

theorem setViewWindow (displays : Displays buffer display) (scrX scrY : Nat) :
    Displays (buffer.setViewWindow scrX scrY) (display.setViewWindow scrX scrY) := by
  obtain ⟨build, img3Off, showX, showY⟩ := displays
  unfold BuildBuffer.setViewWindow Display.setViewWindow
  dsimp only
  rw [img3Off, showX, showY]
  have centred : (buildBaseInit : Int) - (scrX : Int) / 4 - (scrY : Int) * scrollXWidth =
      buildBaseInit - (scrX / 4 : Nat) - (scrY * scrollXWidth : Nat) := by
    push_cast
    rfl
  have stays : (0 ≤ display.img3Off + (scrX : Int) / 4 + (scrY : Int) * scrollXWidth ∧
      display.img3Off + 3 * scrollSize + ((scrX : Int) + scrollXDim - 1) / 4 +
        ((scrY : Int) + scrollYDim - 1) * scrollXWidth < buildBufSize) ↔
      (0 ≤ display.img3Off + (scrX / 4 : Nat) + (scrY * scrollXWidth : Nat) ∧
      display.img3Off + 3 * scrollSize + ((scrX + scrollXDim - 1) / 4 : Nat) +
        ((scrY + scrollYDim - 1) * scrollXWidth : Nat) < buildBufSize) := by
    simp only [scrollXDim, scrollYDim, scrollXWidth, scrollSize, buildBufSize]
    omega
  have apart : ((scrX : Int) ≤ (display.showX : Int) - scrollXDim ∨
      (display.showX : Int) + scrollXDim ≤ (scrX : Int) ∨
      (scrY : Int) ≤ (display.showY : Int) - scrollYDim ∨
      (display.showY : Int) + scrollYDim ≤ (scrY : Int)) ↔
      (scrX + scrollXDim ≤ display.showX ∨ display.showX + scrollXDim ≤ scrX ∨
      scrY + scrollYDim ≤ display.showY ∨ display.showY + scrollYDim ≤ scrY) := by
    simp only [scrollXDim, scrollYDim]
    omega
  simp only [stays, apart, centred]
  by_cases fits : 0 ≤ display.img3Off + (scrX / 4 : Nat) + (scrY * scrollXWidth : Nat) ∧
      display.img3Off + 3 * scrollSize + ((scrX + scrollXDim - 1) / 4 : Nat) +
        ((scrY + scrollYDim - 1) * scrollXWidth : Nat) < buildBufSize
  · rw [if_pos fits, if_pos fits]
    exact ⟨build, rfl, rfl, rfl⟩
  rw [if_neg fits, if_neg fits]
  by_cases disjoint : scrX + scrollXDim ≤ display.showX ∨ display.showX + scrollXDim ≤ scrX ∨
      scrY + scrollYDim ≤ display.showY ∨ display.showY + scrollYDim ≤ scrY
  · rw [if_pos disjoint, if_pos disjoint]
    exact ⟨build, rfl, rfl, rfl⟩
  rw [if_neg disjoint, if_neg disjoint]
  refine ⟨?_, rfl, rfl, rfl⟩
  dsimp only
  rw [← build, ← copyBytes_memory]
  congr 2
  all_goals
    simp only [scrollXDim, scrollYDim, scrollXWidth, scrollSize, buildBaseInit] at *
    split_ifs <;> omega

theorem drawVertLine (displays : Displays buffer display) (blocks : Blocks) (maze : Maze)
    (column : Nat) :
    Displays (buffer.drawVertLine (fun x y => fillVertBuffer blocks maze x.toNat y.toNat) column)
      (display.drawVertLine blocks maze column) := by
  obtain ⟨build, img3Off, showX, showY⟩ := displays
  unfold BuildBuffer.drawVertLine Display.drawVertLine
  by_cases beyond : scrollXDim ≤ column
  · rw [if_pos (.inr (by exact_mod_cast beyond)), if_pos beyond]
    exact ⟨build, img3Off, showX, showY⟩
  rw [if_neg (by simp only [scrollXDim] at beyond ⊢; omega), if_neg beyond]
  refine ⟨?_, img3Off, showX, showY⟩
  dsimp only
  apply And.left
  apply forLoop_relates fun (first : Logged Int UInt8 × Int) (second : (Int → UInt8) × Int) =>
    first.1.memory = second.1 ∧ first.2 = second.2
  · refine ⟨build, ?_⟩
    rw [img3Off, showX, showY]
    push_cast
    rfl
  · rintro done first second early ⟨memory, addr⟩
    have place : first.2 + (3 - ((column : Int) + buffer.showX) % 4) * scrollSize =
        second.2 + ((3 - (column + display.showX) % 4) * scrollSize : Nat) := by
      simp only [scrollSize]
      omega
    have line : ((column : Int) + buffer.showX).toNat = column + display.showX := by omega
    refine ⟨?_, congrArg (· + (scrollXWidth : Int)) addr⟩
    dsimp only
    rw [place, line, showY, Int.toNat_natCast, ← memory]
    rfl

theorem drawHorizLine (displays : Displays buffer display) (blocks : Blocks) (maze : Maze)
    (row : Nat) :
    Displays (buffer.drawHorizLine (fun x y => fillHorizBuffer blocks maze x.toNat y.toNat) row)
      (display.drawHorizLine blocks maze row) := by
  obtain ⟨build, img3Off, showX, showY⟩ := displays
  unfold BuildBuffer.drawHorizLine Display.drawHorizLine
  by_cases beyond : scrollYDim ≤ row
  · rw [if_pos (.inr (by exact_mod_cast beyond)), if_pos beyond]
    exact ⟨build, img3Off, showX, showY⟩
  rw [if_neg (by simp only [scrollYDim] at beyond ⊢; omega), if_neg beyond]
  refine ⟨?_, img3Off, showX, showY⟩
  dsimp only
  apply And.left
  apply forLoop_relates fun (first : Logged Int UInt8 × Int × Int)
    (second : (Int → UInt8) × Int × Nat) => first.1.memory = second.1 ∧
      first.2.1 = second.2.1 ∧ first.2.2 = second.2.2
  · refine ⟨build, ?_, ?_⟩
    · rw [img3Off, showX, showY]
      push_cast
      rfl
    · dsimp only
      omega
  · rintro done first second early ⟨memory, addr, pOff⟩
    have place : first.2.1 + first.2.2 * scrollSize =
        second.2.1 + (second.2.2 * scrollSize : Nat) := by
      rw [addr, pOff]
      push_cast
      rfl
    have line : ((row : Int) + buffer.showY).toNat = row + display.showY := by omega
    have stored : (first.1.store (first.2.1 + first.2.2 * scrollSize)
        (fillHorizBuffer blocks maze buffer.showX.toNat ((row : Int) + buffer.showY).toNat
          (0 + done))).memory = Function.update second.1
            (second.2.1 + (second.2.2 * scrollSize : Nat))
            (fillHorizBuffer blocks maze display.showX (row + display.showY) (0 + done)) := by
      rw [place, line, showX, Int.toNat_natCast, ← memory]
      rfl
    by_cases last : second.2.2 = 0
    · rw [if_pos last, if_pos (by omega)]
      exact ⟨stored, congrArg (· + 1) addr, rfl⟩
    · rw [if_neg last, if_neg (by omega)]
      exact ⟨stored, addr, by dsimp only; omega⟩

/-- A pixel has the same place in both models. -/
theorem address_eq (img3Off : buffer.img3Off = display.img3Off) (x y : Nat) :
    buffer.address x y = display.img3Off + (x / 4 : Nat) + (y * scrollXWidth : Nat) +
      ((3 - x % 4) * scrollSize : Nat) := by
  rw [BuildBuffer.address, img3Off]
  simp only [scrollXWidth, scrollSize]
  omega

/-- Both models hide the same blocks. -/
theorem clip_hidden (displays : Displays buffer display) {posX posY : Nat}
    (hidden : posX + blockXDim ≤ display.showX ∨ display.showX + scrollXDim ≤ posX ∨
      posY + blockYDim ≤ display.showY ∨ display.showY + scrollYDim ≤ posY) :
    buffer.clip posX posY = none := by
  obtain ⟨-, -, showX, showY⟩ := displays
  rw [BuildBuffer.clip, if_pos]
  rw [showX, showY]
  exact_mod_cast hidden

/-- Both models clip a block in the same way. -/
theorem clip_shown (displays : Displays buffer display) {posX posY : Nat}
    (shown : ¬ (posX + blockXDim ≤ display.showX ∨ display.showX + scrollXDim ≤ posX ∨
      posY + blockYDim ≤ display.showY ∨ display.showY + scrollYDim ≤ posY)) :
    let xLeft := display.showX - posX
    let xRight := min (display.showX + scrollXDim - posX) blockXDim - xLeft
    let yTop := display.showY - posY
    let yBottom := min (display.showY + scrollYDim - posY) blockYDim - yTop
    buffer.clip posX posY = some ⟨(posX + xLeft : Nat), (posY + yTop : Nat), xRight, yBottom,
      (xLeft + yTop * blockXDim : Nat), (blockXDim - xRight : Nat)⟩ := by
  obtain ⟨-, -, showX, showY⟩ := displays
  simp only [blockXDim, blockYDim, scrollXDim, scrollYDim] at *
  rw [BuildBuffer.clip, if_neg]
  · simp only [blockXDim, blockYDim, scrollXDim, scrollYDim, Option.some.injEq,
      BuildBuffer.Clip.mk.injEq]
    refine ⟨?_, ?_, ?_, ?_, ?_, ?_⟩ <;> omega
  · simp only [blockXDim, blockYDim, scrollXDim, scrollYDim]
    omega

/-- Both models take a pixel of the part from the same place in the picture. -/
theorem index_natCast (posX posY : Int) (xRight yBottom start xLeft dx dy : Nat) :
    BuildBuffer.Clip.index ⟨posX, posY, xRight, yBottom, start, xLeft⟩ dx dy =
      start + dy * (xRight + xLeft) + dx := by
  rw [BuildBuffer.Clip.index]
  exact_mod_cast Int.toNat_natCast (start + dy * (xRight + xLeft) + dx)

theorem drawFullBlock (displays : Displays buffer display) (posX posY : Nat)
    (blk : Nat → UInt8) :
    Displays (buffer.drawFullBlock posX posY blk) (display.drawFullBlock posX posY blk) := by
  unfold BuildBuffer.drawFullBlock Display.drawFullBlock
  by_cases hidden : posX + blockXDim ≤ display.showX ∨ display.showX + scrollXDim ≤ posX ∨
      posY + blockYDim ≤ display.showY ∨ display.showY + scrollYDim ≤ posY
  · rw [displays.clip_hidden hidden, if_pos hidden]
    exact displays
  rw [displays.clip_shown hidden, if_neg hidden]
  refine ⟨?_, displays.img3Off, displays.showX, displays.showY⟩
  dsimp only
  rw [Int.toNat_natCast, Int.toNat_natCast]
  apply forLoop_relates fun (logged : Logged Int UInt8) memory => logged.memory = memory
  · exact displays.build
  · rintro dy rows _ row rfl
    apply forLoop_relates fun (logged : Logged Int UInt8) memory => logged.memory = memory
    · rfl
    · rintro dx pixels _ column rfl
      rw [index_natCast, ← Nat.cast_add, ← Nat.cast_add, address_eq displays.img3Off]
      rfl

end Displays

end ComputerSystems.Mp2
