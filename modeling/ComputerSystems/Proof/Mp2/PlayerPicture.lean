import ComputerSystems.Proof.Mp2.PlayerDrawing
import ComputerSystems.Proof.Mp2.Walking

namespace ComputerSystems.Mp2

open Library

namespace Display

theorem setViewWindow_img3Off (display : Display) (scrX scrY : Nat) :
    (display.setViewWindow scrX scrY).img3Off =
      if 0 ≤ display.img3Off + (scrX / 4 : Nat) + (scrY * scrollXWidth : Nat) ∧
        display.img3Off + 3 * scrollSize + ((scrX + scrollXDim - 1) / 4 : Nat) +
          ((scrY + scrollYDim - 1) * scrollXWidth : Nat) < buildBufSize then display.img3Off
      else buildBaseInit - (scrX / 4 : Nat) - (scrY * scrollXWidth : Nat) := by
  rw [setViewWindow]
  dsimp only
  split_ifs <;> rfl

end Display

/-- A display shows the window of another one, up to spoiled pixels and to the colors that a pixel
may have instead. -/
structure Mirrors (ideal real : Display) (spoiled : Set (Nat × Nat))
    (tint : Nat × Nat → Set UInt8) : Prop where
  img3Off : real.img3Off = ideal.img3Off
  showX : real.showX = ideal.showX
  showY : real.showY = ideal.showY
  colors : ∀ pixel ∈ ideal.window, pixel ∉ spoiled →
    real.color pixel = ideal.color pixel ∨ real.color pixel ∈ tint pixel

namespace Mirrors

variable {ideal real next after : Display} {spoiled left drawn : Set (Nat × Nat)}
variable {tint other : Nat × Nat → Set UInt8} {picture : Nat × Nat → UInt8}

theorem refl (display : Display) (spoiled : Set (Nat × Nat)) (tint : Nat × Nat → Set UInt8) :
    Mirrors display display spoiled tint :=
  ⟨rfl, rfl, rfl, fun _ _ _ => .inl rfl⟩

theorem window_eq (mirrors : Mirrors ideal real spoiled tint) : real.window = ideal.window := by
  rw [Display.window, Display.window, mirrors.showX, mirrors.showY]

theorem weaken (mirrors : Mirrors ideal real spoiled tint)
    (more : ∀ pixel, tint pixel ⊆ other pixel) : Mirrors ideal real spoiled other :=
  ⟨mirrors.img3Off, mirrors.showX, mirrors.showY, fun pixel shown clean =>
    (mirrors.colors pixel shown clean).imp_right fun tinted => more pixel tinted⟩

/-- A drawing on both displays. -/
theorem both (mirrors : Mirrors ideal real spoiled tint)
    (first : ideal.Recolors next drawn picture) (second : real.Recolors after drawn picture) :
    Mirrors next after spoiled tint := by
  refine ⟨?_, ?_, ?_, fun pixel shown clean => ?_⟩
  · rw [second.img3Off, first.img3Off, mirrors.img3Off]
  · rw [second.showX, first.showX, mirrors.showX]
  · rw [second.showY, first.showY, mirrors.showY]
  · rw [Display.window, first.showX, first.showY] at shown
    have seen : pixel ∈ real.window := mirrors.window_eq ▸ shown
    by_cases painted : pixel ∈ drawn
    · rw [first.shows pixel shown painted, second.shows pixel seen painted]
      exact .inl rfl
    · rw [first.frame pixel shown painted, second.frame pixel seen painted]
      exact mirrors.colors pixel shown clean

/-- A drawing on the real display only may spoil some pixels and clean others. -/
theorem recolor (mirrors : Mirrors ideal real spoiled tint)
    (recolors : real.Recolors next drawn picture)
    (rest : ∀ pixel ∈ ideal.window, pixel ∈ spoiled → pixel ∉ drawn → pixel ∈ left)
    (legal : ∀ pixel ∈ ideal.window, pixel ∈ drawn → pixel ∉ left →
      picture pixel = ideal.color pixel ∨ picture pixel ∈ tint pixel) :
    Mirrors ideal next left tint := by
  refine ⟨?_, ?_, ?_, fun pixel shown clean => ?_⟩
  · rw [recolors.img3Off, mirrors.img3Off]
  · rw [recolors.showX, mirrors.showX]
  · rw [recolors.showY, mirrors.showY]
  · have seen : pixel ∈ real.window := mirrors.window_eq ▸ shown
    by_cases painted : pixel ∈ drawn
    · rw [recolors.shows pixel seen painted]
      exact legal pixel shown painted clean
    · rw [recolors.frame pixel seen painted]
      exact mirrors.colors pixel shown fun dirty => clean (rest pixel shown dirty painted)

/-- The same move of the window on both displays, with its new part drawn. -/
theorem scroll (mirrors : Mirrors ideal real spoiled tint) {scrX scrY : Nat}
    (first : (ideal.setViewWindow scrX scrY).Recolors next drawn picture)
    (second : (real.setViewWindow scrX scrY).Recolors after drawn picture)
    (covers : (ideal.setViewWindow scrX scrY).window ⊆ ideal.window ∪ drawn) :
    Mirrors next after spoiled tint := by
  refine ⟨?_, ?_, ?_, fun pixel shown clean => ?_⟩
  · rw [second.img3Off, first.img3Off, Display.setViewWindow_img3Off,
      Display.setViewWindow_img3Off, mirrors.img3Off]
  · rw [second.showX, first.showX, Display.setViewWindow_showX, Display.setViewWindow_showX]
  · rw [second.showY, first.showY, Display.setViewWindow_showY, Display.setViewWindow_showY]
  · rw [Display.window, first.showX, first.showY] at shown
    have windows : (real.setViewWindow scrX scrY).window =
        (ideal.setViewWindow scrX scrY).window := by
      simp only [Display.window, Display.setViewWindow_showX, Display.setViewWindow_showY]
    have seen : pixel ∈ (real.setViewWindow scrX scrY).window := windows ▸ shown
    by_cases painted : pixel ∈ drawn
    · rw [first.shows pixel shown painted, second.shows pixel seen painted]
      exact .inl rfl
    · have old : pixel ∈ ideal.window := (covers shown).resolve_right painted
      have oldSeen : pixel ∈ real.window := mirrors.window_eq ▸ old
      have kept : (ideal.setViewWindow scrX scrY).color pixel = ideal.color pixel :=
        ideal.setViewWindow_keeps scrX scrY old shown
      have keptReal : (real.setViewWindow scrX scrY).color pixel = real.color pixel :=
        real.setViewWindow_keeps scrX scrY oldSeen seen
      rw [first.frame pixel shown painted, second.frame pixel seen painted, kept, keptReal]
      exact mirrors.colors pixel old clean

/-- A block of the picture drawn on both displays. -/
theorem drawFullBlock (mirrors : Mirrors ideal real spoiled tint) (posX posY : Nat)
    (blk : Nat → UInt8) : Mirrors (ideal.drawFullBlock posX posY blk)
      (real.drawFullBlock posX posY blk) spoiled tint :=
  mirrors.both (ideal.drawFullBlock_recolors posX posY blk)
    (real.drawFullBlock_recolors posX posY blk)

/-- The exposure of a location changes the maze without regard to the display. -/
theorem unveilSpace (mirrors : Mirrors ideal real spoiled tint) (blocks : Blocks) (x y : Int)
    (maze : Maze) :
    (Mp2.unveilSpace blocks x y (maze, real)).1 = (Mp2.unveilSpace blocks x y (maze, ideal)).1 ∧
      Mirrors (Mp2.unveilSpace blocks x y (maze, ideal)).2
        (Mp2.unveilSpace blocks x y (maze, real)).2 spoiled tint := by
  rw [Mp2.unveilSpace, Mp2.unveilSpace]
  dsimp only
  split_ifs
  · exact ⟨rfl, mirrors⟩
  · exact ⟨rfl, mirrors⟩
  · exact ⟨rfl, mirrors.drawFullBlock ..⟩

theorem checkForFruit (mirrors : Mirrors ideal real spoiled tint) (blocks : Blocks) (x y : Nat)
    (maze : Maze) :
    (Mp2.checkForFruit blocks x y (maze, real)).2.1 =
        (Mp2.checkForFruit blocks x y (maze, ideal)).2.1 ∧
      Mirrors (Mp2.checkForFruit blocks x y (maze, ideal)).2.2
        (Mp2.checkForFruit blocks x y (maze, real)).2.2 spoiled tint := by
  rw [Mp2.checkForFruit, Mp2.checkForFruit]
  dsimp only
  split_ifs
  · exact ⟨rfl, mirrors⟩
  · exact ⟨rfl, (mirrors.drawFullBlock ..).drawFullBlock ..⟩
  · exact ⟨rfl, mirrors.drawFullBlock ..⟩
  · exact ⟨rfl, mirrors⟩

theorem unveilSpaces (mirrors : Mirrors ideal real spoiled tint) (blocks : Blocks) (x y : Int)
    (around : List (Int × Int)) (maze : Maze) :
    let unveil := fun (scene : Maze × Display) (offset : Int × Int) =>
      Mp2.unveilSpace blocks (x + offset.1) (y + offset.2) scene
    (around.foldl unveil (maze, real)).1 = (around.foldl unveil (maze, ideal)).1 ∧
      Mirrors (around.foldl unveil (maze, ideal)).2 (around.foldl unveil (maze, real)).2
        spoiled tint := by
  intro unveil
  induction around generalizing maze ideal real with
  | nil => exact ⟨rfl, mirrors⟩
  | cons offset rest ih =>
      obtain ⟨same, unveiled⟩ := mirrors.unveilSpace blocks (x + offset.1) (y + offset.2) maze
      rw [List.foldl_cons, List.foldl_cons]
      have scenes : unveil (maze, real) offset =
          ((unveil (maze, ideal) offset).1, (unveil (maze, real) offset).2) :=
        Prod.ext same rfl
      rw [scenes]
      exact ih unveiled (unveil (maze, ideal) offset).1

/-- The unveiling around the player on both displays. -/
theorem unveilAroundPlayer {game : Game} (mirrors : Mirrors ideal game.display spoiled tint)
    (blocks : Blocks) :
    let mirrored := ({ game with display := ideal } : Game).unveilAroundPlayer blocks
    let unveiled := game.unveilAroundPlayer blocks
    unveiled.1 = mirrored.1 ∧
      mirrored.2 = { unveiled.2 with display := mirrored.2.display } ∧
      Mirrors mirrored.2.display unveiled.2.display spoiled tint := by
  intro mirrored unveiled
  obtain ⟨same, fruited⟩ := mirrors.checkForFruit blocks (game.playX / blockXDim)
    (game.playY / blockYDim) game.maze
  have scenes : (Mp2.checkForFruit blocks (game.playX / blockXDim) (game.playY / blockYDim)
      (game.maze, game.display)).2 = ((Mp2.checkForFruit blocks (game.playX / blockXDim)
        (game.playY / blockYDim) (game.maze, ideal)).2.1, (Mp2.checkForFruit blocks
          (game.playX / blockXDim) (game.playY / blockYDim) (game.maze, game.display)).2.2) :=
    Prod.ext same rfl
  obtain ⟨mazes, shown⟩ := fruited.unveilSpaces blocks (game.playX / blockXDim : Nat)
    (game.playY / blockYDim : Nat) _ (Mp2.checkForFruit blocks (game.playX / blockXDim)
      (game.playY / blockYDim) (game.maze, ideal)).2.1
  rw [← scenes] at mazes shown
  refine ⟨?_, ?_, shown⟩
  · exact congrArg (fun maze => checkForWin maze (game.playX / blockXDim)
      (game.playY / blockYDim)) mazes
  · exact congrArg (fun maze : Maze => ({ game with
      maze := maze, display := mirrored.2.display } : Game)) mazes.symm

end Mirrors

end ComputerSystems.Mp2
