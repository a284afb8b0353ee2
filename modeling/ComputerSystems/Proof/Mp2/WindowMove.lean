import ComputerSystems.Proof.Mp2.BuildBufferDisplay
import ComputerSystems.Proof.Mp2.BuildBufferLayout
import ComputerSystems.Proof.Mp2.ViewWindow

namespace ComputerSystems.Mp2

open Library

namespace BuildBuffer

/-- The copy is right for ranges that overlap in either direction. -/
theorem copyBytes_eq (source target : Int) {length : Int} (nonnegative : 0 ≤ length)
    (build : Logged Int UInt8) (place : Int) :
    (copyBytes source target length build).memory place =
      if target ≤ place ∧ place < target + length then build.memory (place - target + source)
      else build.memory place := by
  lift length to Nat using nonnegative
  rw [Displays.copyBytes_memory, Display.copyBytes_eq]

section
variable (buffer : BuildBuffer) (scrX scrY : Int)

theorem setViewWindow_showX : (buffer.setViewWindow scrX scrY).showX = scrX := by
  unfold setViewWindow
  dsimp only
  split_ifs <;> rfl

theorem setViewWindow_showY : (buffer.setViewWindow scrX scrY).showY = scrY := by
  unfold setViewWindow
  dsimp only
  split_ifs <;> rfl

/-- The one copy goes from plane 3 of the first shared row to plane 0 of the last one. Each shared
pixel lies in it, whatever its plane is. -/
theorem setViewWindow_keeps {x y : Int} (before : (x, y) ∈ buffer.window)
    (after : (x, y) ∈ (buffer.setViewWindow scrX scrY).window) :
    (buffer.setViewWindow scrX scrY).build.memory ((buffer.setViewWindow scrX scrY).address x y) =
      buffer.build.memory (buffer.address x y) := by
  obtain ⟨⟨left, right⟩, top, bottom⟩ := before
  obtain ⟨⟨newLeft, newRight⟩, newTop, newBottom⟩ := after
  rw [setViewWindow_showX] at newLeft newRight
  rw [setViewWindow_showY] at newTop newBottom
  unfold setViewWindow
  dsimp only
  split_ifs with fits apart column row row
  · rfl
  · -- Windows that do not overlap share no pixel.
    dsimp only [scrollXDim, scrollYDim] at *
    omega
  all_goals
    dsimp only [address, scrollXDim, scrollYDim, scrollXWidth, scrollSize, buildBaseInit] at *
    rw [copyBytes_eq _ _ (by omega), if_pos (by omega)]
    refine congrArg buffer.build.memory ?_
    omega

end

end BuildBuffer

/-- In every state of the build buffer, a move of the view to any window keeps the pixels that both
windows show. -/
theorem setViewWindow_keepsImage (horizLineFn vertLineFn : Int → Int → Nat → UInt8)
    (bytes : Int → UInt8) (saveBuf : Nat → UInt8) (calls : List BufferCall) (scrX scrY : Int) :
    let buffer := calls.foldl (BuildBuffer.call horizLineFn vertLineFn)
      (BuildBuffer.setModeX bytes saveBuf)
    let moved := buffer.setViewWindow scrX scrY
    moved.showX = scrX ∧ moved.showY = scrY ∧ ∀ pixel ∈ buffer.window ∩ moved.window,
      moved.build.memory (moved.address pixel.1 pixel.2) =
        buffer.build.memory (buffer.address pixel.1 pixel.2) := by
  intro buffer moved
  exact ⟨buffer.setViewWindow_showX scrX scrY, buffer.setViewWindow_showY scrX scrY,
    fun _ member => buffer.setViewWindow_keeps scrX scrY member.1 member.2⟩

end ComputerSystems.Mp2
