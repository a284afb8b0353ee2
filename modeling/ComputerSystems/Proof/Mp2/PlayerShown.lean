import ComputerSystems.Proof.Mp2.PlayerView

namespace ComputerSystems.Mp2

open Library

theorem Pictured.unveilAt {blocks : Blocks} {game : Game} (pictured : Pictured blocks game)
    {playX : Nat} (playY : Nat) (behind : game.playX / blockXDim ≤ playX / blockXDim)
    (ahead : playX / blockXDim ≤ game.playX / blockXDim + 1) :
    Pictured blocks (game.unveilAt blocks playX playY) :=
  pictured.unveilNear playY behind ahead

/-- The colors that undrawing the player may leave behind. -/
def floorTint (blocks : Blocks) (maze : Maze) (pixel : Nat × Nat) : Set UInt8 :=
  {value | maze.Trodden (pixel.1 / blockXDim) (pixel.2 / blockYDim) ∧
    ∃ i < blockXDim * blockYDim, value = blocks blockEmpty i}

/-- The pixels at the player that a picture of it may have covered. The first column or row in the
direction of motion is redrawn or was never drawn. -/
def Game.smeared (game : Game) : Set (Nat × Nat) :=
  {pixel | pixel ∈ Display.square game.playX game.playY ∧
    (pixel.1 = game.playX → blockXDim ∣ game.playX) ∧
      (pixel.2 = game.playY → blockYDim ∣ game.playY)}

/-- The real display shows the picture but for the player and for floor where it went. -/
def Portrayed (blocks : Blocks) (spoiled : Set (Nat × Nat)) (game : Game) : Prop :=
  ∃ ideal, Pictured blocks { game with display := ideal } ∧
    Mirrors ideal game.display spoiled (floorTint blocks game.maze)

/-- All locations under the player are uncovered. -/
def Game.Exposed (game : Game) : Prop :=
  ∀ x y, game.Overlaps x y → game.maze.get x y &&& mazeReach ≠ 0

namespace Portrayed

variable {blocks : Blocks} {game next : Game} {spoiled left : Set (Nat × Nat)}

theorem floorTint_mono {maze other : Maze} (uncovers : maze.Uncovers other) (pixel : Nat × Nat) :
    floorTint blocks maze pixel ⊆ floorTint blocks other pixel :=
  fun _ tinted => ⟨uncovers.trodden tinted.1, tinted.2⟩

/-- A block of the maze may be drawn again anywhere. -/
theorem drawBlock (portrayed : Portrayed blocks spoiled game) {posX posY x y : Nat}
    (column : posX = x * blockXDim) (row : posY = y * blockYDim) :
    Portrayed blocks (spoiled \ Display.square posX posY)
      (game.drawBlock blocks posX posY x y) := by
  obtain ⟨ideal, pictured, mirrors⟩ := portrayed
  refine ⟨ideal, pictured, mirrors.recolor (game.display.drawFullBlock_recolors posX posY
    (blocks (findBlock game.maze x y))) (fun pixel _ dirty apart => ⟨dirty, apart⟩)
      fun pixel shown member _ => .inl ?_⟩
  obtain ⟨⟨first, last⟩, top, bottom⟩ := member
  subst column row
  have color : ideal.color pixel = pixelOf blocks game.maze pixel := pictured.shown pixel shown
  have place : pixel.1 / blockXDim = x ∧ pixel.2 / blockYDim = y := by
    dsimp only [blockXDim, blockYDim] at *
    omega
  rw [color, pixelOf, place.1, place.2, Display.squareIndex]
  refine congrArg _ ?_
  dsimp only [blockXDim, blockYDim] at *
  omega

theorem mono (portrayed : Portrayed blocks spoiled game) (more : spoiled ⊆ left) :
    Portrayed blocks left game := by
  obtain ⟨ideal, pictured, mirrors⟩ := portrayed
  exact ⟨ideal, pictured, mirrors.img3Off, mirrors.showX, mirrors.showY,
    fun pixel shown clean => mirrors.colors pixel shown fun dirty => clean (more dirty)⟩

/-- A step of both displays keeps the picture when no mark is taken away. -/
theorem moved {mirrored : Game}
    (moves : Mirrors.Moves spoiled (floorTint blocks game.maze) mirrored next)
    (uncovers : game.maze.Uncovers next.maze) (pictured : Pictured blocks mirrored) :
    Portrayed blocks spoiled next := by
  obtain ⟨shape, mirrors⟩ := moves
  rw [shape] at pictured
  exact ⟨mirrored.display, pictured, mirrors.weaken fun pixel => floorTint_mono uncovers pixel⟩

theorem unveilAt (portrayed : Portrayed blocks spoiled game) {playX : Nat} (playY : Nat)
    (behind : game.playX / blockXDim ≤ playX / blockXDim)
    (ahead : playX / blockXDim ≤ game.playX / blockXDim + 1) :
    Portrayed blocks spoiled (game.unveilAt blocks playX playY) := by
  obtain ⟨ideal, pictured, mirrors⟩ := portrayed
  exact moved (mirrors.unveilAt blocks playX playY) (game.unveilAt_uncovers blocks playX playY).1
    (pictured.unveilAt playY behind ahead)

/-- The exposure half a block ahead keeps the picture. -/
theorem unveilAhead (portrayed : Portrayed blocks spoiled game) (dir : Dir) :
    Portrayed blocks spoiled (game.unveilAhead blocks dir) := by
  cases dir with
  | left =>
      refine portrayed.unveilAt game.playY ?_ ?_
      all_goals
        dsimp only [blockXDim]
        omega
  | up => exact portrayed.unveilAt _ le_rfl (Nat.le_succ _)
  | right => exact portrayed.unveilAt _ le_rfl (Nat.le_succ _)
  | down => exact portrayed.unveilAt _ le_rfl (Nat.le_succ _)
  | stop => exact portrayed.unveilAt _ le_rfl (Nat.le_succ _)

end Portrayed

namespace Game

variable (blocks : Blocks) (game : Game)

/-- A move changes the position and the view. -/
theorem moveUp_moved : (game.moveUp blocks).maze = game.maze ∧
    (game.moveUp blocks).playX = game.playX ∧ (game.moveUp blocks).playY = game.playY - 1 := by
  rw [moveUp]
  dsimp only
  split_ifs <;> exact ⟨rfl, rfl, rfl⟩

theorem moveRight_moved : (game.moveRight blocks).maze = game.maze ∧
    (game.moveRight blocks).playX = game.playX + 1 ∧
      (game.moveRight blocks).playY = game.playY := by
  rw [moveRight]
  dsimp only
  split_ifs <;> exact ⟨rfl, rfl, rfl⟩

theorem moveDown_moved : (game.moveDown blocks).maze = game.maze ∧
    (game.moveDown blocks).playX = game.playX ∧ (game.moveDown blocks).playY = game.playY + 1 := by
  rw [moveDown]
  dsimp only
  split_ifs <;> exact ⟨rfl, rfl, rfl⟩

theorem moveLeft_moved : (game.moveLeft blocks).maze = game.maze ∧
    (game.moveLeft blocks).playX = game.playX - 1 ∧
      (game.moveLeft blocks).playY = game.playY := by
  rw [moveLeft]
  dsimp only
  split_ifs <;> exact ⟨rfl, rfl, rfl⟩

end Game

section Going

variable {blocks : Blocks} {game : Game} {rest : Int}

/-- The block that is drawn behind the player covers what the player leaves. -/
theorem Portrayed.go {spoiled : Set (Nat × Nat)} (portrayed : Portrayed blocks spoiled game)
    (within : spoiled ⊆ game.smeared) {dir : Dir}
    (track : Track game.maze dir rest game.playX game.playY) (more : rest ≠ 0) :
    ∃ left ⊆ spoiled, left ⊆ (game.go blocks dir).smeared ∧
      Portrayed blocks left (game.go blocks dir) := by
  obtain ⟨ideal, pictured, mirrors⟩ := portrayed
  have smears {moved : Game} {posX posY x y : Nat} (same : moved.maze = game.maze)
      (clean : game.smeared \ Display.square posX posY ⊆ moved.smeared)
      (column : posX = x * blockXDim) (row : posY = y * blockYDim) {mirrored : Game}
      (moves : Mirrors.Moves spoiled (floorTint blocks game.maze) mirrored moved)
      (pictured : Pictured blocks mirrored) :
      ∃ left ⊆ spoiled, left ⊆ (moved.drawBlock blocks posX posY x y).smeared ∧
        Portrayed blocks left (moved.drawBlock blocks posX posY x y) := by
    have unchanged : game.maze.Uncovers moved.maze := by
      rw [same]
      exact .refl _
    refine ⟨spoiled \ Display.square posX posY, Set.sdiff_subset, ?_,
      (Portrayed.moved moves unchanged pictured).drawBlock column row⟩
    exact fun pixel dirty => clean ⟨within dirty.1, dirty.2⟩
  generalize playX_eq : game.playX = playX at track
  generalize playY_eq : game.playY = playY at track
  cases track with
  | @up x y rest short stop start =>
      rw [Game.go]
      obtain ⟨maze, column, row⟩ := game.moveUp_moved blocks
      rw [playX_eq] at column
      rw [playY_eq] at row
      refine smears maze ?_ (by rw [column, Nat.mul_div_cancel _ (by decide)]) rfl
        (mirrors.moveUp blocks pictured.viewed) pictured.moveUp
      rintro pixel ⟨⟨⟨⟨first, last⟩, top, bottom⟩, side, edge⟩, apart⟩
      simp only [Display.square, Set.mem_ofPred_eq, Game.smeared, column, row, playX_eq, playY_eq]
        at *
      dsimp only [blockXDim, blockYDim] at *
      omega
  | @right x y rest gone whole start stop =>
      rw [Game.go]
      obtain ⟨maze, column, row⟩ := game.moveRight_moved blocks
      rw [playX_eq] at column
      rw [playY_eq] at row
      refine smears maze ?_ rfl (by rw [row, Nat.mul_div_cancel _ (by decide)])
        (mirrors.moveRight blocks pictured.viewed) pictured.moveRight
      rintro pixel ⟨⟨⟨⟨first, last⟩, top, bottom⟩, side, edge⟩, apart⟩
      simp only [Display.square, Set.mem_ofPred_eq, Game.smeared, column, row, playX_eq, playY_eq]
        at *
      dsimp only [blockXDim, blockYDim] at *
      omega
  | @down x y rest gone whole start stop =>
      rw [Game.go]
      obtain ⟨maze, column, row⟩ := game.moveDown_moved blocks
      rw [playX_eq] at column
      rw [playY_eq] at row
      refine smears maze ?_ (by rw [column, Nat.mul_div_cancel _ (by decide)]) rfl
        (mirrors.moveDown blocks pictured.viewed) pictured.moveDown
      rintro pixel ⟨⟨⟨⟨first, last⟩, top, bottom⟩, side, edge⟩, apart⟩
      simp only [Display.square, Set.mem_ofPred_eq, Game.smeared, column, row, playX_eq, playY_eq]
        at *
      dsimp only [blockXDim, blockYDim] at *
      omega
  | @left x y rest short stop start =>
      rw [Game.go]
      obtain ⟨maze, column, row⟩ := game.moveLeft_moved blocks
      rw [playX_eq] at column
      rw [playY_eq] at row
      refine smears maze ?_ rfl (by rw [row, Nat.mul_div_cancel _ (by decide)])
        (mirrors.moveLeft blocks pictured.viewed) pictured.moveLeft
      rintro pixel ⟨⟨⟨⟨first, last⟩, top, bottom⟩, side, edge⟩, apart⟩
      simp only [Display.square, Set.mem_ofPred_eq, Game.smeared, column, row, playX_eq, playY_eq]
        at *
      dsimp only [blockXDim, blockYDim] at *
      omega

/-- The pictures of the player between two squares keep off the edges across the way. -/
theorem playerMask_inside {i : Nat} (pixel : i < blockXDim * blockYDim) :
    (playerMask .left i = 1 ∨ playerMask .right i = 1 → i % blockXDim ≠ 0) ∧
      (playerMask .up i = 1 ∨ playerMask .down i = 1 → blockXDim ≤ i) := by
  revert i
  decide

/-- A player between two columns goes sideways, and one between two rows up or down. -/
structure Game.Faces (game : Game) (dir : Dir) : Prop where
  column : ¬ blockXDim ∣ game.playX → dir = .left ∨ dir = .right
  row : ¬ blockYDim ∣ game.playY → dir = .up ∨ dir = .down

theorem Track.faces {dir : Dir} (track : Track game.maze dir rest game.playX game.playY) :
    game.Faces dir := by
  generalize playX_eq : game.playX = playX at track
  generalize playY_eq : game.playY = playY at track
  cases track with
  | up => exact ⟨fun off => absurd (playX_eq ▸ Nat.dvd_mul_left _ _) off, fun _ => .inl rfl⟩
  | right => exact ⟨fun _ => .inr rfl, fun off => absurd (playY_eq ▸ Nat.dvd_mul_left _ _) off⟩
  | down => exact ⟨fun off => absurd (playX_eq ▸ Nat.dvd_mul_left _ _) off, fun _ => .inr rfl⟩
  | left => exact ⟨fun _ => .inl rfl, fun off => absurd (playY_eq ▸ Nat.dvd_mul_left _ _) off⟩

/-- The block pictures have the masks of the player. -/
def Masked (blocks : Blocks) : Prop :=
  ∀ dir : Dir, dir ≠ .stop → ∀ i < blockXDim * blockYDim,
    blocks (blockPlayerMaskUp + dir.code) i = playerMask dir i

/-- The pixels of the player in its shape. The byte `0xAA` of a picture is not drawn. -/
def Game.shape (blocks : Blocks) (game : Game) (dir : Dir) : Set (Nat × Nat) :=
  {pixel | pixel ∈ Display.square game.playX game.playY ∧
    playerMask dir (Display.squareIndex game.playX game.playY pixel) = 1 ∧
      blocks (blockPlayerUp + dir.code) (Display.squareIndex game.playX game.playY pixel) ≠ 0xAA}

theorem Display.squareIndex_lt {posX posY : Nat} {pixel : Nat × Nat}
    (member : pixel ∈ Display.square posX posY) :
    Display.squareIndex posX posY pixel < blockXDim * blockYDim := by
  obtain ⟨⟨first, last⟩, top, bottom⟩ := member
  rw [Display.squareIndex]
  dsimp only [blockXDim, blockYDim] at *
  omega

theorem Game.shape_subset {dir : Dir} (faces : game.Faces dir) :
    game.shape blocks dir ⊆ game.smeared := by
  rintro pixel ⟨member, masked, _⟩
  obtain ⟨sideways, upright⟩ := playerMask_inside (Display.squareIndex_lt member)
  refine ⟨member, fun column => by_contra fun off => ?_, fun row => by_contra fun off => ?_⟩
  · refine sideways ?_ ?_
    · rcases faces.column off with rfl | rfl
      · exact .inl masked
      · exact .inr masked
    · rw [Display.squareIndex, column, Nat.sub_self, Nat.add_zero]
      exact Nat.mul_mod_left _ _
  · obtain ⟨⟨first, last⟩, _⟩ := member
    refine absurd (upright ?_) ?_
    · rcases faces.row off with rfl | rfl
      · exact .inl masked
      · exact .inr masked
    · rw [Display.squareIndex, row, Nat.sub_self, Nat.zero_mul, Nat.zero_add]
      omega

/-- The player is drawn in its shape. -/
theorem drawPlayer_recolors {dir : Dir} (masked : Masked blocks) (moves : dir ≠ .stop) :
    game.display.Recolors (game.drawPlayer blocks dir).display (game.shape blocks dir)
      fun pixel => blocks (blockPlayerUp + dir.code)
        (Display.squareIndex game.playX game.playY pixel) := by
  have drawn := game.display.drawRefillBlock_recolors game.playX game.playY
    (blocks (blockPlayerMaskUp + dir.code)) (blocks (blockPlayerUp + dir.code))
  have refills {pixel : Nat × Nat} (member : pixel ∈ Display.square game.playX game.playY) :
      BuildBuffer.refillValue (blocks (blockPlayerMaskUp + dir.code))
        (blocks (blockPlayerUp + dir.code)) (Display.squareIndex game.playX game.playY pixel) =
      if playerMask dir (Display.squareIndex game.playX game.playY pixel) = 1 then
        blocks (blockPlayerUp + dir.code) (Display.squareIndex game.playX game.playY pixel)
      else 0xAA := by
    rw [BuildBuffer.refillValue, masked dir moves _ (Display.squareIndex_lt member)]
  refine drawn.congr (fun pixel => and_congr_right fun member => ?_) ?_
  · rw [refills member]
    split_ifs with inside
    · exact (and_iff_right inside).symm
    · exact ⟨fun skipped => absurd rfl skipped, fun both => absurd both.1 inside⟩
  · rintro pixel ⟨member, inside, _⟩
    rw [refills member, if_pos inside]

theorem Portrayed.drawPlayer {spoiled : Set (Nat × Nat)} (portrayed : Portrayed blocks spoiled game)
    {dir : Dir} (masked : Masked blocks) (moves : dir ≠ .stop) :
    Portrayed blocks (spoiled ∪ game.shape blocks dir) (game.drawPlayer blocks dir) := by
  obtain ⟨ideal, pictured, mirrors⟩ := portrayed
  exact ⟨ideal, pictured, mirrors.recolor (drawPlayer_recolors masked moves)
    (fun _ _ dirty _ => .inl dirty) fun pixel _ drawn clean => absurd (.inr drawn) clean⟩

/-- The floor where the player was is on locations that are open and uncovered. -/
theorem Portrayed.undraw {spoiled : Set (Nat × Nat)} (portrayed : Portrayed blocks spoiled game)
    (within : spoiled ⊆ game.smeared)
    (opened : ∀ x y, game.Overlaps x y → game.maze.Open x y) (exposed : game.Exposed) :
    Portrayed blocks ∅ { game with
      display := game.display.undraw game.playX game.playY (blocks blockEmpty) } := by
  obtain ⟨ideal, pictured, mirrors⟩ := portrayed
  refine ⟨ideal, pictured, mirrors.recolor (game.display.drawFullBlock_recolors game.playX
    game.playY (blocks blockEmpty)) (fun pixel _ dirty apart => absurd (within dirty).1 apart)
      fun pixel _ member _ => .inr ⟨?_, _, Display.squareIndex_lt member, rfl⟩⟩
  have under : game.Overlaps (pixel.1 / blockXDim) (pixel.2 / blockYDim) := by
    obtain ⟨⟨first, last⟩, top, bottom⟩ := member
    dsimp only [Game.Overlaps, blockXDim, blockYDim] at *
    omega
  exact ⟨opened _ _ under, exposed _ _ under⟩

end Going

end ComputerSystems.Mp2
