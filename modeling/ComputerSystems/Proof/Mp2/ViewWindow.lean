import ComputerSystems.Proof.Mp2.Drawing

namespace ComputerSystems.Mp2

open Library

namespace Display

/-- A copy to a higher place goes down, so that no byte is read after it was replaced. -/
theorem copyBytes_down {source target : Int} (below : source < target) (length : Nat)
    (build : Int → UInt8) (place : Int) :
    copyBytes source target length build place =
      if target ≤ place ∧ place < target + length then build (place - target + source)
      else build place := by
  rw [copyBytes, if_pos below]
  let down (round : Nat) (current : Int → UInt8) : Int → UInt8 :=
    Function.update current (target + (length - 1 - round : Nat))
      (current (source + (length - 1 - round : Nat)))
  have copied : ∀ place, forLoop down 0 length build place =
      if target + (length - length : Nat) ≤ place ∧ place < target + length then
        build (place - target + source) else build place := by
    apply forLoop_rule fun done (current : Int → UInt8) => ∀ place, current place =
      if target + (length - done : Nat) ≤ place ∧ place < target + length then
        build (place - target + source) else build place
    · intro place
      rw [if_neg (by omega)]
    · intro done current early before place
      have read := before (source + (length - 1 - (0 + done) : Nat))
      rw [if_neg (by omega)] at read
      dsimp only [down]
      rw [Function.update_apply, read, before place]
      by_cases here : place = target + (length - 1 - (0 + done) : Nat)
      · rw [if_pos here, if_pos (by omega), here]
        refine congrArg build ?_
        omega
      · rw [if_neg here]
        refine if_congr ?_ rfl rfl
        omega
  rw [Nat.sub_self, Nat.cast_zero, add_zero] at copied
  exact copied place

theorem copyBytes_up {source target : Int} (above : ¬ source < target) (length : Nat)
    (build : Int → UInt8) (place : Int) :
    copyBytes source target length build place =
      if target ≤ place ∧ place < target + length then build (place - target + source)
      else build place := by
  rw [copyBytes, if_neg above]
  revert place
  apply forLoop_rule fun done (current : Int → UInt8) => ∀ place, current place =
    if target ≤ place ∧ place < target + done then build (place - target + source)
    else build place
  · intro place
    rw [if_neg (by omega)]
  · intro done current early before place
    have read := before (source + (0 + done : Nat))
    rw [if_neg (by omega)] at read
    rw [Function.update_apply, read, before place]
    by_cases here : place = target + (0 + done : Nat)
    · rw [if_pos here, if_pos (by omega), here]
      refine congrArg build ?_
      omega
    · rw [if_neg here]
      refine if_congr ?_ rfl rfl
      omega

/-- The copy is right for ranges that overlap in either direction. -/
theorem copyBytes_eq (source target : Int) (length : Nat) (build : Int → UInt8) (place : Int) :
    copyBytes source target length build place =
      if target ≤ place ∧ place < target + length then build (place - target + source)
      else build place := by
  by_cases below : source < target
  · exact copyBytes_down below length build place
  · exact copyBytes_up below length build place

/-- The window lies in the build buffer. -/
def Fits (display : Display) : Prop :=
  0 ≤ display.img3Off + (display.showX / 4 : Nat) + (display.showY * scrollXWidth : Nat) ∧
    display.img3Off + 3 * scrollSize + ((display.showX + scrollXDim - 1) / 4 : Nat) +
      ((display.showY + scrollYDim - 1) * scrollXWidth : Nat) < buildBufSize

theorem Draws.fits {before after : Display} {drawn : Set (Nat × Nat)}
    {picture : Nat × Nat → UInt8} (draws : Draws before after drawn picture) (fits : before.Fits) :
    after.Fits := by
  rwa [Fits, draws.img3Off, draws.showX, draws.showY]

/-- The window is in the buffer after every move of the view. -/
theorem setViewWindow_fits (display : Display) (scrX scrY : Nat) :
    (display.setViewWindow scrX scrY).Fits := by
  rw [setViewWindow]
  dsimp only
  split_ifs with fits apart
  · exact fits
  · rw [Fits]
    dsimp only [scrollXDim, scrollYDim, scrollXWidth, scrollSize, buildBufSize, buildBaseInit]
    omega
  all_goals
    rw [Fits]
    dsimp only [scrollXDim, scrollYDim, scrollXWidth, scrollSize, buildBufSize, buildBaseInit]
    omega

@[simp] theorem setViewWindow_showX (display : Display) (scrX scrY : Nat) :
    (display.setViewWindow scrX scrY).showX = scrX := by
  rw [setViewWindow]
  dsimp only
  split_ifs <;> rfl

@[simp] theorem setViewWindow_showY (display : Display) (scrX scrY : Nat) :
    (display.setViewWindow scrX scrY).showY = scrY := by
  rw [setViewWindow]
  dsimp only
  split_ifs <;> rfl

/-- The pixels that stay in the window keep their color. -/
theorem setViewWindow_keeps (display : Display) (scrX scrY : Nat) {pixel : Nat × Nat}
    (before : pixel ∈ display.window) (after : pixel ∈ (display.setViewWindow scrX scrY).window) :
    (display.setViewWindow scrX scrY).build ((display.setViewWindow scrX scrY).address pixel) =
      display.build (display.address pixel) := by
  obtain ⟨⟨left, right⟩, top, bottom⟩ := before
  obtain ⟨⟨newLeft, newRight⟩, newTop, newBottom⟩ := after
  rw [setViewWindow_showX] at newLeft newRight
  rw [setViewWindow_showY] at newTop newBottom
  rw [setViewWindow]
  dsimp only
  split_ifs with fits apart column row row
  · rfl
  · dsimp only [scrollXDim, scrollYDim] at *
    omega
  all_goals
    dsimp only [address]
    rw [copyBytes_eq]
    dsimp only [scrollXDim, scrollYDim, scrollXWidth, scrollSize, buildBaseInit] at *
    rw [if_pos (by omega)]
    refine congrArg display.build ?_
    omega

/-- A move of the view is complete when the new part of the window is drawn. -/
theorem setViewWindow_completes {display after : Display} {scrX scrY : Nat}
    {drawn : Set (Nat × Nat)} {picture : Nat × Nat → UInt8}
    (shows : Shows display.build display.address display.window picture)
    (draws : Draws (display.setViewWindow scrX scrY) after drawn picture)
    (covers : (display.setViewWindow scrX scrY).window ⊆ display.window ∪ drawn)
    (within : drawn ⊆ (display.setViewWindow scrX scrY).window) :
    Shows after.build after.address after.window picture := by
  have both : Shows display.build display.address
      (display.window ∩ (display.setViewWindow scrX scrY).window) picture :=
    shows.mono Set.inter_subset_left
  have kept := both.move fun pixel member =>
    display.setViewWindow_keeps scrX scrY member.1 member.2
  refine draws.completes kept (fun pixel member => ?_) within
  rcases covers member with old | new
  · exact .inl ⟨old, member⟩
  · exact .inr new

/-- All lines together fill the window. -/
theorem drawHorizLine_fills (blocks : Blocks) (maze : Maze) (display : Display) :
    Draws display (forLoop (fun i display => display.drawHorizLine blocks maze i) 0 scrollYDim
      display) display.window (pixelOf blocks maze) := by
  let rows (done : Nat) : Set (Nat × Nat) :=
    {pixel | pixel ∈ display.window ∧ pixel.2 < display.showY + done}
  have all : rows scrollYDim = display.window := by
    ext pixel
    exact ⟨fun member => member.1, fun member => ⟨member, member.2.2⟩⟩
  rw [← all]
  apply forLoop_rule fun done current => Draws display current (rows done) (pixelOf blocks maze)
  · have nothing : rows 0 = ∅ := by
      refine Set.eq_empty_iff_forall_notMem.2 fun pixel member => ?_
      obtain ⟨⟨_, top, _⟩, low⟩ := member
      omega
    rw [nothing]
    exact .refl ..
  · intro done current early earlier
    have inside : 0 + done < scrollYDim := by omega
    have line := current.drawHorizLine_draws blocks maze inside
    have same : current.horizontal (0 + done + current.showY) =
        display.horizontal (done + display.showY) := by
      rw [horizontal, horizontal, earlier.showX, earlier.showY, Nat.zero_add]
    have visible : display.horizontal (done + display.showY) ⊆ display.window :=
      horizontal_subset ⟨by omega, by omega⟩
    have more : rows (done + 1) = rows done ∪ display.horizontal (done + display.showY) := by
      ext pixel
      constructor
      · rintro ⟨member, low⟩
        by_cases last : pixel.2 = done + display.showY
        · exact .inr ⟨member.1, last⟩
        · exact .inl ⟨member, by omega⟩
      · rintro (⟨member, low⟩ | new)
        · exact ⟨member, by omega⟩
        · have row := new.2
          exact ⟨visible new, by omega⟩
    rw [same] at line
    rw [more]
    exact earlier.trans line (Set.union_subset (fun pixel member => member.1) visible)

end Display

end ComputerSystems.Mp2
