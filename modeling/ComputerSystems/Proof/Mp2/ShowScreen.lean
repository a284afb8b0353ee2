import ComputerSystems.Construction.Mp2.ShowScreen

namespace ComputerSystems.Mp2

open Library

namespace Video

/-- The places of the image that starts at an offset. -/
def image (offset : Nat) : Set (Nat × Nat) :=
  {place | offset ≤ place.2 ∧ place.2 < offset + scrollSize}

variable (video : Video)

/-- The map mask of `show_screen` enables one plane. -/
theorem mapMask_testBit (i plane : Nat) :
    (video.setWriteMask (1 <<< (i + 8))).mapMask.testBit plane = decide (i = plane) := by
  have mask : 1 <<< (i + 8) / 256 = 2 ^ i := by
    rw [Nat.one_shiftLeft, pow_add]
    exact Nat.mul_div_cancel _ (by decide)
  unfold setWriteMask
  rw [mask, Nat.testBit_two_pow]

/-- The two halves of the offset go to their registers. -/
theorem startAddress_select : ((video.outw (0x4000 &&& 0xFF00 ||| 0x0C)).outw
    ((0x4000 &&& 0x00FF) <<< 8 ||| 0x0D)).startAddress = 0x4000 := by
  simp [startAddress, outw]

section
variable {video} {plane : Nat}

/-- A byte goes to its one plane. -/
theorem store_memory (enabled : ∀ other, video.mapMask.testBit other = decide (plane = other))
    (inside : plane < 4) (offset : Nat) (value : UInt8) :
    (video.store offset value).memory = video.memory.store (plane, offset) value := by
  unfold store
  dsimp only
  have stored : forLoop (fun other memory =>
      if video.mapMask.testBit other then memory.store (other, offset) value else memory)
        0 4 video.memory =
      if plane < 4 then video.memory.store (plane, offset) value else video.memory := by
    apply forLoop_rule fun done memory => memory =
      if plane < done then video.memory.store (plane, offset) value else video.memory
    · rfl
    · intro done memory early before
      rw [Nat.zero_add, enabled, before]
      by_cases here : plane = done
      · subst here
        simp
      · simp only [here, decide_false, Bool.false_eq_true, if_false]
        exact if_congr (by omega) rfl rfl
  rw [stored, if_pos inside]

/-- A copied plane holds the bytes of the build buffer in its image. -/
structure Copied (build : Int → UInt8) (img : Int) (plane target count : Nat)
    (before after : Video) : Prop where
  mapMask : after.mapMask = before.mapMask
  targetImg : after.targetImg = before.targetImg
  memory : ∀ place, after.memory.memory place =
    if place.1 = plane ∧ target ≤ place.2 ∧ place.2 < target + count then
      build (img + (place.2 - target : Nat)) else before.memory.memory place
  touched : ∀ place ∈ after.memory.touched, place ∈ before.memory.touched ∨
    target ≤ place.2 ∧ place.2 < target + count

/-- The copy of some bytes to consecutive offsets of one plane. -/
theorem bytes_copied (enabled : ∀ other, video.mapMask.testBit other = decide (plane = other))
    (inside : plane < 4) (build : Int → UInt8) (img : Int) (target count : Nat) :
    Copied build img plane target count video
      (forLoop (fun i => store (target + i) (build (img + i))) 0 count video) := by
  apply forLoop_rule fun done current => Copied build img plane target done video current
  · refine ⟨rfl, rfl, fun place => ?_, fun _ member => .inl member⟩
    rw [if_neg (by omega)]
  · intro done current early before
    have same : ∀ other, current.mapMask.testBit other = decide (plane = other) := by
      rw [before.mapMask]
      exact enabled
    refine ⟨before.mapMask, before.targetImg, ?_, ?_⟩
    · rintro ⟨other, offset⟩
      rw [store_memory same inside, Logged.store]
      dsimp only
      rw [Function.update_apply, before.memory]
      by_cases here : other = plane ∧ offset = target + done
      · obtain ⟨rfl, rfl⟩ := here
        rw [Nat.zero_add, if_pos rfl, if_pos ⟨rfl, by omega, by omega⟩, Nat.add_sub_cancel_left]
      · rw [if_neg (by rw [Prod.mk.injEq]; omega)]
        exact if_congr (by omega) rfl rfl
    · rw [store_memory same inside]
      intro place member
      rcases List.mem_cons.1 member with rfl | earlier
      · exact .inr ⟨by dsimp only; omega, by dsimp only; omega⟩
      · exact (before.touched place earlier).imp id fun range => ⟨range.1, by omega⟩

theorem copyImage_copied (enabled : ∀ other, video.mapMask.testBit other = decide (plane = other))
    (inside : plane < 4) (build : Int → UInt8) (img : Int) (target : Nat) :
    Copied build img plane target scrollSize video (video.copyImage build img target) :=
  bytes_copied enabled inside build img target scrollSize

end

end Video

namespace BuildBuffer
variable (buffer : BuildBuffer) (video : Video)

/-- Plane `i` of the display gets the plane of the build buffer with its pixels. The pixels behind
the last plane in a group of four are one byte further on. -/
theorem address_shown (i column : Nat) (plane : i < 4) (sy : Nat) :
    buffer.img3Off + buffer.showX / 4 + buffer.showY * scrollXWidth +
        (3 - buffer.showX % 4 - i + 4) % 4 * scrollSize +
          (if 3 - buffer.showX % 4 < i then 1 else 0) + (column + scrollXWidth * sy : Nat) =
      buffer.address (buffer.showX + (4 * column + i : Nat)) (buffer.showY + sy) := by
  unfold address
  simp only [scrollXWidth, scrollSize]
  split_ifs <;> omega

/-- The first planes of the display hold the window. -/
structure Planes (done : Nat) (after : Video) : Prop where
  targetImg : after.targetImg = 0x4000
  shown : ∀ i < done, ∀ column < scrollXWidth, ∀ sy < scrollYDim,
    after.memory.memory (i, 0x4000 + (column + scrollXWidth * sy)) =
      buffer.build.memory (buffer.address (buffer.showX + (4 * column + i : Nat))
        (buffer.showY + sy))
  confined : Confined (Video.image 0x4000) video.memory after.memory

theorem showScreen_planes : ∃ copied, buffer.Planes video 4 copied ∧
    buffer.showScreen video = (copied.outw (copied.targetImg &&& 0xFF00 ||| 0x0C)).outw
      ((copied.targetImg &&& 0x00FF) <<< 8 ||| 0x0D) := by
  refine ⟨_, ?_, rfl⟩
  apply forLoop_rule fun done current => buffer.Planes video done current
  · exact ⟨rfl, fun i early => absurd early (Nat.not_lt_zero i), Confined.refl ..⟩
  · intro done current early before
    rw [Nat.zero_add]
    have copied := Video.copyImage_copied (current.mapMask_testBit done) early buffer.build.memory
      (buffer.img3Off + buffer.showX / 4 + buffer.showY * scrollXWidth +
        (3 - buffer.showX % 4 - done + 4) % 4 * scrollSize +
          if 3 - buffer.showX % 4 < done then 1 else 0) current.targetImg
    refine ⟨copied.targetImg.trans before.targetImg, ?_, ?_⟩
    · intro i recent column near sy low
      rw [copied.memory, before.targetImg]
      dsimp only [scrollXWidth, scrollYDim, scrollSize] at near low ⊢
      by_cases last : i = done
      · subst last
        rw [if_pos ⟨rfl, by omega, by omega⟩, Nat.add_sub_cancel_left]
        exact congrArg buffer.build.memory (buffer.address_shown i column early sy)
      · rw [if_neg (by omega)]
        exact before.shown i (by omega) column near sy low
    · apply before.confined.trans
      have target := before.targetImg
      constructor
      · intro place member
        rw [← target]
        exact copied.touched place member
      · intro place outside
        rw [copied.memory, if_neg]
        · rfl
        · rintro ⟨_, range⟩
          exact outside (target ▸ range)

end BuildBuffer

/-- After `show_screen` the CRT controller displays an image of the window, and nothing is written
outside of that image, which lies behind the status bar. -/
theorem showScreen_displays (buffer : BuildBuffer) (video : Video) :
    let shown := buffer.showScreen video
    shown.startAddress = shown.targetImg ∧ 1440 ≤ shown.targetImg ∧
      (∀ sx < scrollXDim, ∀ sy < scrollYDim,
        shown.memory.memory (sx % 4, shown.targetImg + sx / 4 + scrollXWidth * sy) =
          buffer.build.memory (buffer.address (buffer.showX + sx) (buffer.showY + sy))) ∧
      Confined (Video.image shown.targetImg) video.memory shown.memory := by
  intro shown
  obtain ⟨copied, planes, ends⟩ := buffer.showScreen_planes video
  have target : shown.targetImg = 0x4000 := by
    rw [show shown = _ from ends]
    exact planes.targetImg
  have memory : shown.memory = copied.memory := by
    rw [show shown = _ from ends]
    rfl
  refine ⟨?_, ?_, ?_, ?_⟩
  · have start : shown.startAddress = 0x4000 := by
      rw [show shown = _ from ends, planes.targetImg]
      exact copied.startAddress_select
    rw [start, target]
  · rw [target]
    decide
  · intro sx near sy low
    rw [memory, target, Nat.add_assoc]
    have column : sx = 4 * (sx / 4) + sx % 4 := by omega
    have pixel := planes.shown (sx % 4) (Nat.mod_lt sx (by decide)) (sx / 4)
      (by dsimp only [scrollXDim, scrollXWidth] at near ⊢; omega) sy low
    rwa [← column] at pixel
  · rw [memory, target]
    exact planes.confined

end ComputerSystems.Mp2
