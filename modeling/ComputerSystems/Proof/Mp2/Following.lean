import ComputerSystems.Proof.Mp2.MazePicture

namespace ComputerSystems.Mp2

open Library

/-- The block of the player lies on the lattice cells 1 to `2 * dim - 1` of an axis. -/
def onLattice (play dim : Nat) : Bool :=
  blockXDim ≤ play && play ≤ (2 * dim - 1) * blockXDim

/-- A move that leads off the lattice is refused. -/
def Game.latticeStep (blocks : Blocks) (game : Game) (event : GameEvent) : Except Unit Game :=
  let next := game.apply blocks event
  if onLattice next.playX next.mazeXDim && onLattice next.playY next.mazeYDim then .ok next
  else .error ()

/-- The view along one axis keeps to the maze, and the player to the pan borders where the view can
still move. -/
structure Followed (map play dim scrollDim : Nat) : Prop where
  first : showMin ≤ map
  last : map + scrollDim + showMin ≤ (2 * dim + 1) * blockXDim
  before : map = showMin ∨ map + blockXDim * panBorder ≤ play
  after : map + scrollDim + showMin = (2 * dim + 1) * blockXDim ∨
    play + blockXDim * (panBorder + 1) ≤ map + scrollDim

namespace Followed

variable {map play dim scrollDim : Nat}

/-- The view follows a step back. -/
theorem back (followed : Followed map play dim scrollDim)
    (roomy : blockXDim * (2 * panBorder + 1) ≤ scrollDim) :
    Followed (if play - 1 < map + blockXDim * panBorder ∧ showMin < map then map - 1 else map)
      (play - 1) dim scrollDim := by
  obtain ⟨first, last, before, after⟩ := followed
  split_ifs with pans
  all_goals
    constructor
    all_goals
      dsimp only [blockXDim, panBorder, showMin] at *
      omega

theorem forth (followed : Followed map play dim scrollDim)
    (roomy : blockXDim * (2 * panBorder + 1) ≤ scrollDim) :
    Followed (if map + scrollDim - blockXDim * (panBorder + 1) < play + 1 ∧
        map + scrollDim < (2 * dim + 1) * blockXDim - showMin then map + 1 else map)
      (play + 1) dim scrollDim := by
  obtain ⟨first, last, before, after⟩ := followed
  split_ifs with pans
  all_goals
    constructor
    all_goals
      dsimp only [blockXDim, panBorder, showMin] at *
      omega

/-- A player on the lattice is seen whole. -/
theorem seen (followed : Followed map play dim scrollDim) (inside : onLattice play dim = true) :
    map ≤ play ∧ play + blockXDim ≤ map + scrollDim := by
  obtain ⟨first, last, before, after⟩ := followed
  obtain ⟨low, high⟩ := (Bool.and_eq_true _ _).mp inside
  replace low := of_decide_eq_true low
  replace high := of_decide_eq_true high
  dsimp only [blockXDim, panBorder, showMin] at *
  omega

end Followed

/-- The view follows the player along both axes, and the player is on the lattice. -/
structure Following (game : Game) : Prop where
  column : Followed game.mapX game.playX game.mazeXDim scrollXDim
  row : Followed game.mapY game.playY game.mazeYDim scrollYDim
  insideX : onLattice game.playX game.mazeXDim = true
  insideY : onLattice game.playY game.mazeYDim = true

namespace Following

variable {blocks : Blocks} {game next : Game}

/-- A move along one axis follows with its part of the view. -/
theorem applied (following : Following game) (blocks : Blocks) (event : GameEvent) :
    let next := game.apply blocks event
    Followed next.mapX next.playX next.mazeXDim scrollXDim ∧
      Followed next.mapY next.playY next.mazeYDim scrollYDim := by
  obtain ⟨column, row, _⟩ := following
  cases event with
  | moveUp =>
      have back := row.back (by decide)
      dsimp only [Game.apply, Game.moveUp]
      split_ifs at back ⊢ with pans
      · exact ⟨column, back⟩
      · exact ⟨column, back⟩
  | moveRight =>
      have forth := column.forth (by decide)
      dsimp only [Game.apply, Game.moveRight]
      split_ifs at forth ⊢ with pans
      · exact ⟨forth, row⟩
      · exact ⟨forth, row⟩
  | moveDown =>
      have forth := row.forth (by decide)
      dsimp only [Game.apply, Game.moveDown]
      split_ifs at forth ⊢ with pans
      · exact ⟨column, forth⟩
      · exact ⟨column, forth⟩
  | moveLeft =>
      have back := column.back (by decide)
      dsimp only [Game.apply, Game.moveLeft]
      split_ifs at back ⊢ with pans
      · exact ⟨back, row⟩
      · exact ⟨back, row⟩
  | unveil => exact ⟨column, row⟩

theorem step {event : GameEvent} (following : Following game)
    (stepped : game.latticeStep blocks event = .ok next) : Following next := by
  have moved := following.applied blocks event
  rw [Game.latticeStep] at stepped
  split_ifs at stepped with inside
  cases stepped
  obtain ⟨insideX, insideY⟩ := (Bool.and_eq_true _ _).mp inside
  exact ⟨moved.1, moved.2, insideX, insideY⟩

/-- A new level shows the upper left corner of the maze. -/
theorem prepared {fuel : Nat} {random : Nat → Nat} {level : Int} {before : Game}
    (ready : prepareMazeLevel blocks fuel random level before = some (0, game)) :
    Following game := by
  obtain ⟨maze, made, rfl⟩ := prepareMazeLevel_made ready
  obtain ⟨wide, high, _⟩ := Maze.makeMaze_furnished made
  have corner {dim : Nat} (positive : 0 < dim) : onLattice blockXDim dim = true := by
    refine (Bool.and_eq_true _ _).mpr ⟨decide_eq_true le_rfl, decide_eq_true ?_⟩
    exact Nat.le_mul_of_pos_left blockXDim (by omega)
  have view {dim scrollDim : Nat}
      (tall : showMin + scrollDim + showMin ≤ (2 * dim + 1) * blockXDim)
      (roomy : blockXDim * (panBorder + 2) ≤ scrollDim) :
      Followed showMin blockXDim dim scrollDim :=
    ⟨le_rfl, tall, .inl rfl, .inr (by dsimp only [blockXDim, panBorder] at *; omega)⟩
  refine ⟨view ?_ (by decide), view ?_ (by decide), corner (lt_of_lt_of_le (by decide) wide),
    corner (lt_of_lt_of_le (by decide) high)⟩
  · dsimp only [mazeMinXDim, showMin, scrollXDim, blockXDim] at wide ⊢
    omega
  · dsimp only [mazeMinYDim, showMin, scrollYDim, blockXDim] at high ⊢
    omega

end Following

/-- In every run on the lattice the view lies in the maze and shows the player, with the pan border
around it wherever the maze goes on. -/
theorem view_follows {blocks : Blocks} {fuel : Nat} {random : Nat → Nat} {level : Int}
    {before game final : Game} {events : List GameEvent}
    (ready : prepareMazeLevel blocks fuel random level before = some (0, game))
    (reached : run (Game.latticeStep blocks) game events = .ok final) :
    (showMin ≤ final.mapX ∧
        final.mapX + scrollXDim ≤ (2 * final.mazeXDim + 1) * blockXDim - showMin) ∧
      (showMin ≤ final.mapY ∧
        final.mapY + scrollYDim ≤ (2 * final.mazeYDim + 1) * blockYDim - showMin) ∧
      (final.mapX ≤ final.playX ∧ final.playX + blockXDim ≤ final.mapX + scrollXDim) ∧
      (final.mapY ≤ final.playY ∧ final.playY + blockYDim ≤ final.mapY + scrollYDim) ∧
      (final.mapX = showMin ∨ final.mapX + blockXDim * panBorder ≤ final.playX) ∧
      (final.mapX + scrollXDim = (2 * final.mazeXDim + 1) * blockXDim - showMin ∨
        final.playX + blockXDim + blockXDim * panBorder ≤ final.mapX + scrollXDim) ∧
      (final.mapY = showMin ∨ final.mapY + blockYDim * panBorder ≤ final.playY) ∧
      (final.mapY + scrollYDim = (2 * final.mazeYDim + 1) * blockYDim - showMin ∨
        final.playY + blockYDim + blockYDim * panBorder ≤ final.mapY + scrollYDim) := by
  have following : Following final :=
    run_invariant Following (fun _ _ _ following _ stepped => following.step stepped)
      (Following.prepared ready) (along_true _ game events) reached
  obtain ⟨column, row, insideX, insideY⟩ := following
  have seenX := column.seen insideX
  have seenY := row.seen insideY
  obtain ⟨firstX, lastX, beforeX, afterX⟩ := column
  obtain ⟨firstY, lastY, beforeY, afterY⟩ := row
  refine ⟨⟨firstX, Nat.le_sub_of_add_le lastX⟩, ⟨firstY, Nat.le_sub_of_add_le lastY⟩, seenX, seenY,
    beforeX, ?_, beforeY, ?_⟩
  · exact afterX.imp Nat.eq_sub_of_add_eq fun border => by
      rwa [Nat.add_assoc, Nat.add_comm blockXDim, ← Nat.mul_succ]
  · exact afterY.imp Nat.eq_sub_of_add_eq fun border => by
      rwa [Nat.add_assoc, Nat.add_comm blockYDim, ← Nat.mul_succ]

theorem view_follows_walk : ∃ game final,
    prepareMazeLevel plainBlocks 200 snake 1 newGame = some (0, game) ∧
      run (Game.latticeStep plainBlocks) game walk = .ok final ∧ final.mapY = 8 ∧
        final.mapY + blockYDim * panBorder ≤ final.playY := by
  have finishes : ((prepareMazeLevel plainBlocks 200 snake 1 newGame).map fun ready =>
      ready.1 = 0 && runCheck (Game.latticeStep plainBlocks) ready.2 walk fun final =>
        final.mapY = 8) = some true := by decide +kernel
  obtain ⟨⟨result, game⟩, ready, passed⟩ := Option.map_eq_some_iff.1 finishes
  rw [Bool.and_eq_true] at passed
  obtain rfl : result = 0 := of_decide_eq_true passed.1
  obtain ⟨final, reached, last⟩ := runCheck_sound passed.2
  have scrolled : final.mapY = 8 := of_decide_eq_true last
  obtain ⟨_, _, _, _, _, _, top | border, _⟩ := view_follows ready reached
  · rw [scrolled] at top
    exact absurd top (by decide)
  · exact ⟨game, final, ready, reached, scrolled, border⟩

end ComputerSystems.Mp2
