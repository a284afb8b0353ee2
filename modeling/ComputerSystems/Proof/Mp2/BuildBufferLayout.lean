import ComputerSystems.Construction.Mp2.BuildBuffer

namespace ComputerSystems.Mp2

open Library

namespace BuildBuffer

/-- The places between the fences. -/
def range : Set Int := {place | 0 ≤ place ∧ place < buildBufSize}

/-- The pixels of the logical view window. -/
def window (buffer : BuildBuffer) : Set (Int × Int) :=
  {pixel | (buffer.showX ≤ pixel.1 ∧ pixel.1 < buffer.showX + scrollXDim) ∧
    buffer.showY ≤ pixel.2 ∧ pixel.2 < buffer.showY + scrollYDim}

/-- The test of `set_view_window` for the current window. -/
def Fits (buffer : BuildBuffer) : Prop :=
  0 ≤ buffer.img3Off + buffer.showX / 4 + buffer.showY * scrollXWidth ∧
    buffer.img3Off + 3 * scrollSize + (buffer.showX + scrollXDim - 1) / 4 +
      (buffer.showY + scrollYDim - 1) * scrollXWidth < buildBufSize

/-- The test bounds the places of all four planes. -/
theorem Fits.address_mem {buffer : BuildBuffer} (fits : buffer.Fits) {x y : Int}
    (member : (x, y) ∈ buffer.window) : buffer.address x y ∈ range := by
  obtain ⟨⟨left, right⟩, top, bottom⟩ := member
  obtain ⟨low, high⟩ := fits
  simp only [scrollXDim, scrollYDim, scrollXWidth, scrollSize, buildBufSize] at *
  constructor
  · simp only [address, scrollXWidth, scrollSize]
    omega
  · simp only [address, scrollXWidth, scrollSize, buildBufSize]
    omega

/-- Two pixels of the window do not share a place, whatever the remainder of its left edge is. -/
theorem address_injOn (buffer : BuildBuffer) :
    Set.InjOn (fun pixel : Int × Int => buffer.address pixel.1 pixel.2) buffer.window := by
  rintro ⟨x, y⟩ ⟨⟨left, right⟩, top, bottom⟩ ⟨u, v⟩ ⟨⟨otherLeft, otherRight⟩, otherTop, otherBottom⟩
    same
  simp only [address] at same
  simp only [scrollXDim, scrollYDim, scrollXWidth, scrollSize] at *
  have planes : x % 4 = u % 4 := by omega
  have columns : x = u ∧ y = v := by omega
  rw [columns.1, columns.2]

theorem setModeX_fits (bytes : Int → UInt8) (saveBuf : Nat → UInt8) :
    (setModeX bytes saveBuf).Fits := by
  simp [Fits, setModeX, scrollXDim, scrollYDim, scrollXWidth, scrollSize, buildBufSize,
    buildBaseInit]

/-- The new window is in the buffer, wherever the old one was. -/
theorem setViewWindow_fits (buffer : BuildBuffer) (scrX scrY : Int) :
    (buffer.setViewWindow scrX scrY).Fits := by
  unfold setViewWindow
  dsimp only
  split_ifs with fits apart
  · exact fits
  · unfold Fits
    simp only [scrollXDim, scrollYDim, scrollXWidth, scrollSize, buildBufSize, buildBaseInit]
    omega
  all_goals
    unfold Fits
    simp only [scrollXDim, scrollYDim, scrollXWidth, scrollSize, buildBufSize, buildBaseInit]
    omega

/-- A copy stays in the range when both of its ends do. -/
theorem copyBytes_confined {source target length : Int} {range : Set Int}
    (loads : ∀ i, 0 ≤ i → i < length → source + i ∈ range)
    (stores : ∀ i, 0 ≤ i → i < length → target + i ∈ range) (build : Logged Int UInt8) :
    Confined range build (copyBytes source target length build) := by
  unfold copyBytes
  split
  · apply Confined.forLoop
    intro round current _ early
    apply Confined.move
    · exact loads _ (by omega) (by omega)
    · exact stores _ (by omega) (by omega)
  · apply Confined.forLoop
    intro i current _ early
    apply Confined.move
    · exact loads _ (by omega) (by omega)
    · exact stores _ (by omega) (by omega)

/-- The move of the picture reads the old window and writes the new one. -/
theorem setViewWindow_confined {buffer : BuildBuffer} (fits : buffer.Fits) (scrX scrY : Int) :
    Confined range buffer.build (buffer.setViewWindow scrX scrY).build := by
  obtain ⟨low, high⟩ := fits
  unfold setViewWindow
  dsimp only
  split_ifs with stays apart column row row
  · exact Confined.refl range buffer.build
  · exact Confined.refl range buffer.build
  all_goals
    simp only [scrollXDim, scrollYDim, scrollXWidth, scrollSize, buildBufSize, buildBaseInit] at *
    apply copyBytes_confined
    · intro i nonnegative early
      constructor
      · omega
      · simp only [buildBufSize]
        omega
    · intro i nonnegative early
      constructor
      · omega
      · simp only [buildBufSize]
        omega

/-- A drawing leaves the window where it is and stays in the buffer. -/
structure DrawsInside (before after : BuildBuffer) : Prop where
  img3Off : after.img3Off = before.img3Off
  showX : after.showX = before.showX
  showY : after.showY = before.showY
  confined : Confined range before.build after.build

theorem DrawsInside.refl (buffer : BuildBuffer) : DrawsInside buffer buffer :=
  ⟨rfl, rfl, rfl, Confined.refl ..⟩

theorem DrawsInside.fits {before after : BuildBuffer} (draws : DrawsInside before after)
    (fits : before.Fits) : after.Fits := by
  rwa [Fits, draws.img3Off, draws.showX, draws.showY]

section
variable {buffer : BuildBuffer}

/-- The pointer of a vertical line goes down one row with each pixel. -/
theorem drawVertLine_inside (fits : buffer.Fits) (vertLineFn : Int → Int → Nat → UInt8)
    (column : Int) : DrawsInside buffer (buffer.drawVertLine vertLineFn column) := by
  unfold drawVertLine
  split
  · exact .refl buffer
  next visible =>
    refine ⟨rfl, rfl, rfl, ?_⟩
    dsimp only
    apply And.left
    apply forLoop_rule fun done (state : Logged Int UInt8 × Int) =>
      Confined range buffer.build state.1 ∧ state.2 = buffer.img3Off +
        (column + buffer.showX) / 4 + (buffer.showY + done) * scrollXWidth
    · exact ⟨Confined.refl .., by simp⟩
    · intro done state early before
      obtain ⟨confined, addr⟩ := before
      have place : state.2 + (3 - (column + buffer.showX) % 4) * scrollSize =
          buffer.address (column + buffer.showX) (buffer.showY + done) := by
        rw [addr, address]
      simp only [scrollXDim, scrollYDim] at visible early
      dsimp only
      rw [place]
      constructor
      · apply confined.trans
        apply Confined.store
        apply fits.address_mem
        simp only [window, scrollXDim, scrollYDim]
        exact ⟨⟨by omega, by omega⟩, by omega, by omega⟩
      · rw [addr]
        push_cast
        ring

/-- The pointer of a horizontal line goes to the next byte after the last plane. -/
theorem drawHorizLine_inside (fits : buffer.Fits) (horizLineFn : Int → Int → Nat → UInt8)
    (row : Int) : DrawsInside buffer (buffer.drawHorizLine horizLineFn row) := by
  unfold drawHorizLine
  split
  · exact .refl buffer
  next visible =>
    refine ⟨rfl, rfl, rfl, ?_⟩
    dsimp only
    apply And.left
    apply forLoop_rule fun done (state : Logged Int UInt8 × Int × Int) =>
      Confined range buffer.build state.1 ∧
        state.2.1 = buffer.img3Off + (buffer.showX + done) / 4 +
          (row + buffer.showY) * scrollXWidth ∧
        state.2.2 = 3 - (buffer.showX + done) % 4
    · exact ⟨Confined.refl .., by simp⟩
    · intro done state early before
      obtain ⟨confined, addr, pOff⟩ := before
      have place : state.2.1 + state.2.2 * scrollSize =
          buffer.address (buffer.showX + done) (row + buffer.showY) := by
        rw [addr, pOff, address]
      simp only [scrollXDim, scrollYDim] at visible early
      have stored : Confined range buffer.build
          (state.1.store (state.2.1 + state.2.2 * scrollSize)
            (horizLineFn buffer.showX (row + buffer.showY) (0 + done))) := by
        rw [place]
        apply confined.trans
        apply Confined.store
        apply fits.address_mem
        simp only [window, scrollXDim, scrollYDim]
        exact ⟨⟨by omega, by omega⟩, by omega, by omega⟩
      split
      next last =>
        refine ⟨stored, ?_, ?_⟩
        · dsimp only
          rw [addr]
          omega
        · dsimp only
          omega
      next more =>
        refine ⟨stored, ?_, ?_⟩
        · dsimp only
          rw [addr]
          omega
        · dsimp only
          omega

/-- Every pixel of the clipped part is in the window. -/
theorem clip_window {posX posY : Int} {part : Clip} (clipped : buffer.clip posX posY = some part)
    {dx dy : Nat} (column : dx < part.xRight.toNat) (row : dy < part.yBottom.toNat) :
    (part.posX + dx, part.posY + dy) ∈ buffer.window := by
  unfold clip at clipped
  split at clipped
  · cases clipped
  · cases clipped
    simp only [blockXDim, blockYDim, scrollXDim, scrollYDim, window] at *
    exact ⟨⟨by omega, by omega⟩, by omega, by omega⟩

theorem drawFullBlock_inside (fits : buffer.Fits) (posX posY : Int) (blk : Nat → UInt8) :
    DrawsInside buffer (buffer.drawFullBlock posX posY blk) := by
  unfold drawFullBlock
  cases clipped : buffer.clip posX posY with
  | none => exact .refl buffer
  | some part =>
      refine ⟨rfl, rfl, rfl, ?_⟩
      apply Confined.forLoop
      intro dy rows _ row
      apply Confined.forLoop
      intro dx pixels _ column
      apply Confined.store
      apply fits.address_mem
      exact clip_window clipped (by omega) (by omega)

/-- A refilled pixel touches its own place only. -/
theorem refillPixel_confined {place : Int} (inside : place ∈ range) (slot : Nat) (value : UInt8)
    (state : Logged Int UInt8 × (Nat → UInt8)) :
    Confined range state.1 (refillPixel place slot value state).1 := by
  unfold refillPixel
  split
  · exact (Confined.load inside state.1).trans (Confined.store inside value _)
  · exact Confined.refl range state.1

theorem drawRefillBlock_inside (fits : buffer.Fits) (posX posY : Int)
    (mask panel : Nat → UInt8) :
    DrawsInside buffer (buffer.drawRefillBlock posX posY mask panel) := by
  unfold drawRefillBlock
  dsimp only
  cases clipped : buffer.clip posX posY with
  | none => exact .refl buffer
  | some part =>
      refine ⟨rfl, rfl, rfl, ?_⟩
      dsimp only
      apply forLoop_rule fun _ (state : Logged Int UInt8 × (Nat → UInt8)) =>
        Confined range buffer.build state.1
      · exact Confined.refl range buffer.build
      · intro dy rows row before
        apply forLoop_rule fun _ (state : Logged Int UInt8 × (Nat → UInt8)) =>
          Confined range buffer.build state.1
        · exact before
        · intro dx pixels column confined
          apply confined.trans
          apply refillPixel_confined
          apply fits.address_mem
          exact clip_window clipped (by omega) (by omega)

end

/-- Every call keeps the window in the buffer and stays between the fences. -/
theorem call_confined {buffer : BuildBuffer} (fits : buffer.Fits)
    (horizLineFn vertLineFn : Int → Int → Nat → UInt8) (call : BufferCall) :
    (buffer.call horizLineFn vertLineFn call).Fits ∧
      Confined range buffer.build (buffer.call horizLineFn vertLineFn call).build := by
  have drawn {after : BuildBuffer} (draws : DrawsInside buffer after) :
      after.Fits ∧ Confined range buffer.build after.build :=
    ⟨draws.fits fits, draws.confined⟩
  cases call with
  | setViewWindow scrX scrY =>
      exact ⟨setViewWindow_fits buffer scrX scrY, setViewWindow_confined fits scrX scrY⟩
  | drawVertLine column => exact drawn (drawVertLine_inside fits vertLineFn column)
  | drawHorizLine row => exact drawn (drawHorizLine_inside fits horizLineFn row)
  | drawFullBlock posX posY blk => exact drawn (drawFullBlock_inside fits posX posY blk)
  | drawRefillBlock posX posY mask panel =>
      exact drawn (drawRefillBlock_inside fits posX posY mask panel)

theorem calls_confined {buffer : BuildBuffer} (fits : buffer.Fits)
    (horizLineFn vertLineFn : Int → Int → Nat → UInt8) (calls : List BufferCall) :
    (calls.foldl (call horizLineFn vertLineFn) buffer).Fits ∧
      Confined range buffer.build (calls.foldl (call horizLineFn vertLineFn) buffer).build := by
  induction calls generalizing buffer with
  | nil => exact ⟨fits, Confined.refl ..⟩
  | cons first rest ih =>
      have step := call_confined fits horizLineFn vertLineFn first
      have later := ih step.1
      exact ⟨later.1, step.2.trans later.2⟩

/-- The fences are not between themselves. -/
theorem fence_not_mem {place : Int} (fenced : place ∈ fence) : place ∉ range := by
  rintro ⟨low, high⟩
  simp only [fence, memFenceWidth, buildBufSize] at fenced high
  rcases fenced with below | above <;> omega

end BuildBuffer

/-- After any calls the window lies in the buffer without collisions, no access has left the
buffer, and both fences hold their magic number. -/
theorem buildBuffer_layout (horizLineFn vertLineFn : Int → Int → Nat → UInt8)
    (bytes : Int → UInt8) (saveBuf : Nat → UInt8) (calls : List BufferCall) :
    let buffer := calls.foldl (BuildBuffer.call horizLineFn vertLineFn)
      (BuildBuffer.setModeX bytes saveBuf)
    (∀ pixel ∈ buffer.window, 0 ≤ buffer.address pixel.1 pixel.2 ∧
        buffer.address pixel.1 pixel.2 < buildBufSize) ∧
      Set.InjOn (fun pixel : Int × Int => buffer.address pixel.1 pixel.2) buffer.window ∧
      (∀ place ∈ buffer.build.touched, 0 ≤ place ∧ place < buildBufSize) ∧
      ∀ place ∈ BuildBuffer.fence, buffer.build.memory place = memFenceMagic := by
  intro buffer
  obtain ⟨fits, confined⟩ := BuildBuffer.calls_confined (BuildBuffer.setModeX_fits bytes saveBuf)
    horizLineFn vertLineFn calls
  refine ⟨fun pixel member => fits.address_mem member, buffer.address_injOn, ?_, ?_⟩
  · intro place member
    exact (confined.touched place member).resolve_left List.not_mem_nil
  · intro place fenced
    rw [confined.outside place (BuildBuffer.fence_not_mem fenced)]
    exact if_pos fenced

end ComputerSystems.Mp2
