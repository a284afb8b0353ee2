import ComputerSystems.Library.Run
import ComputerSystems.Proof.Mp2.Exploring
import ComputerSystems.Proof.Mp2.ViewWindow

namespace ComputerSystems.Mp2

open Library

/-- The view lies in the maze and follows the player sideways. -/
structure Viewed (game : Game) : Prop where
  xDim : game.maze.xDim = game.mazeXDim
  yDim : game.maze.yDim = game.mazeYDim
  wide : mazeMinXDim ≤ game.mazeXDim
  showX : game.display.showX = game.mapX
  showY : game.display.showY = game.mapY
  left : showMin ≤ game.mapX
  right : game.mapX + scrollXDim + showMin ≤ (2 * game.mazeXDim + 1) * blockXDim
  top : showMin ≤ game.mapY
  bottom : game.mapY + scrollYDim + showMin ≤ (2 * game.mazeYDim + 1) * blockYDim
  panLeft : showMin < game.mapX → game.mapX + blockXDim * panBorder ≤ game.playX
  panRight : game.mapX + scrollXDim + showMin < (2 * game.mazeXDim + 1) * blockXDim →
    game.playX + blockXDim * (panBorder + 1) ≤ game.mapX + scrollXDim

/-- The window shows the current maze. -/
structure Pictured (blocks : Blocks) (game : Game) : Prop where
  viewed : Viewed game
  fits : game.display.Fits
  furnished : game.maze.Furnished
  shown : Shows game.display.build game.display.address game.display.window
    (pixelOf blocks game.maze)

namespace Viewed

variable {game : Game}

theorem within (viewed : Viewed game) : Within (game.maze, game.display) where
  wide := by
    have wide := viewed.wide
    rw [viewed.xDim]
    exact lt_of_lt_of_le (by decide) wide
  right := by
    have right := viewed.right
    rw [viewed.xDim, viewed.showX]
    omega

/-- The left and the right boundary are not both near the window and the player, who may look one
block ahead. -/
theorem alone (viewed : Viewed game) {x y : Nat} (near : game.playX / blockXDim ≤ x + 2)
    (far : x ≤ game.playX / blockXDim + 3) (inside : x ≤ 2 * game.maze.xDim) :
    Alone (game.maze, game.display) x y := by
  intro pixel member same
  have column := viewed.within.column member
  obtain ⟨⟨first, last⟩, _⟩ := member
  have wide := viewed.wide
  have left := viewed.panLeft
  have right := viewed.panRight
  rw [viewed.showX] at first last
  rw [viewed.xDim] at inside column
  rcases Maze.mazeIndex_alias viewed.within.wide (viewed.xDim ▸ column) (viewed.xDim ▸ inside)
    same with here | ⟨edge, other⟩ | ⟨edge, other⟩
  · exact here
  · dsimp only at other
    rw [viewed.xDim] at other
    dsimp only [blockXDim, scrollXDim, showMin, panBorder, mazeMinXDim] at *
    omega
  · dsimp only at edge
    rw [viewed.xDim] at edge
    dsimp only [blockXDim, scrollXDim, showMin, panBorder, mazeMinXDim] at *
    omega

end Viewed

/-- A new level has a new maze, shown from its upper left corner. -/
theorem prepareMazeLevel_made {blocks : Blocks} {fuel : Nat} {random : Nat → Nat} {level : Int}
    {before game : Game}
    (ready : prepareMazeLevel blocks fuel random level before = some (0, game)) :
    let offset := level - 1
    let mazeXDim := (min (mazeMinXDim + 2 * offset) mazeMaxXDim).toNat
    let mazeYDim := (min (mazeMinYDim + 2 * offset) mazeMaxYDim).toNat
    ∃ maze, makeMaze fuel random mazeXDim mazeYDim (min (1 + offset.tdiv 2) 6).toNat before.maze =
        some (0, maze) ∧
      game = ⟨mazeXDim, mazeYDim, showMin, showMin, maze,
        forLoop (fun i display => display.drawHorizLine blocks maze i) 0 scrollYDim
          (before.display.setViewWindow showMin showMin), blockXDim, blockYDim⟩ := by
  rw [prepareMazeLevel] at ready
  obtain ⟨⟨result, maze⟩, made, shape⟩ := Option.map_eq_some_iff.1 ready
  dsimp only at shape
  split_ifs at shape with failed
  · exact absurd (congrArg Prod.fst shape) (show (-1 : Int) ≠ 0 by decide)
  · obtain rfl : result = 0 := not_not.1 failed
    cases shape
    exact ⟨maze, made, rfl⟩

namespace Pictured

variable {blocks : Blocks} {game next : Game}

/-- A move that does not scroll. -/
theorem stay (pictured : Pictured blocks game) (viewed : Viewed next)
    (maze : next.maze = game.maze) (display : next.display = game.display) :
    Pictured blocks next := by
  refine ⟨viewed, ?_, ?_, ?_⟩
  · rw [display]
    exact pictured.fits
  · rw [maze]
    exact pictured.furnished
  · rw [maze, display]
    exact pictured.shown

/-- A move that scrolls draws the line that comes into the window. -/
theorem scroll (pictured : Pictured blocks game) {scrX scrY : Nat} {drawn : Set (Nat × Nat)}
    (viewed : Viewed next) (maze : next.maze = game.maze)
    (draws : (game.display.setViewWindow scrX scrY).Draws next.display drawn
      (pixelOf blocks game.maze))
    (covers : (game.display.setViewWindow scrX scrY).window ⊆ game.display.window ∪ drawn)
    (within : drawn ⊆ (game.display.setViewWindow scrX scrY).window) :
    Pictured blocks next where
  viewed := viewed
  fits := draws.fits (game.display.setViewWindow_fits scrX scrY)
  furnished := by
    rw [maze]
    exact pictured.furnished
  shown := by
    rw [maze]
    exact Display.setViewWindow_completes pictured.shown draws covers within

/-- The view may move up or down by one line. -/
theorem scrollRow (pictured : Pictured blocks game) {mapY playY row : Nat}
    (inside : row < scrollYDim) (top : showMin ≤ mapY)
    (bottom : mapY + scrollYDim + showMin ≤ (2 * game.mazeYDim + 1) * blockYDim)
    (rows : ∀ place, mapY ≤ place → place < mapY + scrollYDim →
      place = row + mapY ∨ game.mapY ≤ place ∧ place < game.mapY + scrollYDim) :
    Pictured blocks { game with
      mapY := mapY, playY := playY
      display := (game.display.setViewWindow game.mapX mapY).drawHorizLine blocks game.maze
        row } := by
  have draws := (game.display.setViewWindow game.mapX mapY).drawHorizLine_draws blocks game.maze
    inside
  have showX := Display.setViewWindow_showX game.display game.mapX mapY
  have showY := Display.setViewWindow_showY game.display game.mapX mapY
  have viewed := pictured.viewed
  refine pictured.scroll ⟨viewed.xDim, viewed.yDim, viewed.wide, draws.showX.trans showX,
    draws.showY.trans showY, viewed.left, viewed.right, top, bottom, viewed.panLeft,
    viewed.panRight⟩ rfl draws (Display.window_subset_horizontal ?_ ?_)
    (Display.horizontal_subset ?_)
  · rw [showX, viewed.showX]
  · rw [showY, viewed.showY]
    exact rows
  · omega

/-- The view may move left or right by one line. -/
theorem scrollColumn (pictured : Pictured blocks game) {mapX playX column : Nat}
    (inside : column < scrollXDim) (left : showMin ≤ mapX)
    (right : mapX + scrollXDim + showMin ≤ (2 * game.mazeXDim + 1) * blockXDim)
    (panLeft : showMin < mapX → mapX + blockXDim * panBorder ≤ playX)
    (panRight : mapX + scrollXDim + showMin < (2 * game.mazeXDim + 1) * blockXDim →
      playX + blockXDim * (panBorder + 1) ≤ mapX + scrollXDim)
    (columns : ∀ place, mapX ≤ place → place < mapX + scrollXDim →
      place = column + mapX ∨ game.mapX ≤ place ∧ place < game.mapX + scrollXDim) :
    Pictured blocks { game with
      mapX := mapX, playX := playX
      display := (game.display.setViewWindow mapX game.mapY).drawVertLine blocks game.maze
        column } := by
  have draws := (game.display.setViewWindow mapX game.mapY).drawVertLine_draws blocks game.maze
    inside
  have showX := Display.setViewWindow_showX game.display mapX game.mapY
  have showY := Display.setViewWindow_showY game.display mapX game.mapY
  have viewed := pictured.viewed
  refine pictured.scroll ⟨viewed.xDim, viewed.yDim, viewed.wide, draws.showX.trans showX,
    draws.showY.trans showY, left, right, viewed.top, viewed.bottom, panLeft, panRight⟩ rfl draws
    (Display.window_subset_vertical ?_ ?_) (Display.vertical_subset ?_)
  · rw [showY, viewed.showY]
  · rw [showX, viewed.showX]
    exact columns
  · omega

theorem moveUp (pictured : Pictured blocks game) : Pictured blocks (game.moveUp blocks) := by
  have viewed := pictured.viewed
  have bottom := viewed.bottom
  rw [Game.moveUp]
  dsimp only
  split_ifs with scrolls
  · exact pictured.scrollRow (by decide) (by omega) (by omega) fun place low high => by omega
  · exact pictured.stay ⟨viewed.xDim, viewed.yDim, viewed.wide, viewed.showX, viewed.showY,
      viewed.left, viewed.right, viewed.top, bottom, viewed.panLeft, viewed.panRight⟩ rfl rfl

theorem moveDown (pictured : Pictured blocks game) : Pictured blocks (game.moveDown blocks) := by
  have viewed := pictured.viewed
  have top := viewed.top
  rw [Game.moveDown]
  dsimp only
  split_ifs with scrolls
  · exact pictured.scrollRow (by decide) (by omega) (by omega) fun place low high => by
      dsimp only [scrollYDim] at *
      omega
  · exact pictured.stay ⟨viewed.xDim, viewed.yDim, viewed.wide, viewed.showX, viewed.showY,
      viewed.left, viewed.right, top, viewed.bottom, viewed.panLeft, viewed.panRight⟩ rfl rfl

theorem moveRight (pictured : Pictured blocks game) : Pictured blocks (game.moveRight blocks) := by
  have viewed := pictured.viewed
  have left := viewed.left
  have panLeft := viewed.panLeft
  have panRight := viewed.panRight
  rw [Game.moveRight]
  dsimp only
  split_ifs with scrolls
  · refine pictured.scrollColumn (by decide) ?_ ?_ ?_ ?_ fun place low high => ?_
    all_goals
      dsimp only [showMin, scrollXDim, blockXDim, panBorder] at *
      omega
  · refine pictured.stay ⟨viewed.xDim, viewed.yDim, viewed.wide, viewed.showX, viewed.showY,
      left, viewed.right, viewed.top, viewed.bottom, ?_, ?_⟩ rfl rfl
    all_goals
      dsimp only [showMin, scrollXDim, blockXDim, panBorder] at *
      omega

theorem moveLeft (pictured : Pictured blocks game) : Pictured blocks (game.moveLeft blocks) := by
  have viewed := pictured.viewed
  have right := viewed.right
  have panLeft := viewed.panLeft
  have panRight := viewed.panRight
  rw [Game.moveLeft]
  dsimp only
  split_ifs with scrolls
  · refine pictured.scrollColumn (by decide) ?_ ?_ ?_ ?_ fun place low high => ?_
    all_goals
      dsimp only [showMin, scrollXDim, blockXDim, panBorder] at *
      omega
  · refine pictured.stay ⟨viewed.xDim, viewed.yDim, viewed.wide, viewed.showX, viewed.showY,
      viewed.left, right, viewed.top, viewed.bottom, ?_, ?_⟩ rfl rfl
    all_goals
      dsimp only [showMin, scrollXDim, blockXDim, panBorder] at *
      omega

/-- The exposure around a position at most one block ahead of the player keeps the picture. -/
theorem unveilNear (pictured : Pictured blocks game) {playX : Nat} (playY : Nat)
    (behind : game.playX / blockXDim ≤ playX / blockXDim)
    (ahead : playX / blockXDim ≤ game.playX / blockXDim + 1) :
    Pictured blocks
      { ({ game with playX := playX, playY := playY }.unveilAroundPlayer blocks).2 with
        playX := game.playX
        playY := game.playY } := by
  have viewed := pictured.viewed
  have start : Follows blocks (game.maze, game.display) (game.maze, game.display) :=
    ⟨rfl, rfl, rfl, rfl, rfl, pictured.furnished, pictured.shown⟩
  have fruited := start.checkForFruit viewed.within (playX / blockXDim) (playY / blockYDim)
  have close : ∀ offset ∈ around, -2 ≤ offset.1 ∧ offset.1 ≤ 2 := by decide
  have unveiled := List.foldlRecOn around (fun scene offset =>
      unveilSpace blocks ((playX / blockXDim : Nat) + offset.1)
        ((playY / blockYDim : Nat) + offset.2) scene) fruited
    fun scene follows offset member => follows.unveilSpace viewed.within fun u v place inside => by
      have bounds := close offset member
      exact viewed.alone (by omega) (by omega) inside
  obtain ⟨xDim, yDim, img3Off, showX, showY, furnished, shown⟩ := unveiled
  have fits := pictured.fits
  refine ⟨⟨xDim.trans viewed.xDim, yDim.trans viewed.yDim, viewed.wide, showX.trans viewed.showX,
    showY.trans viewed.showY, viewed.left, viewed.right, viewed.top, viewed.bottom, viewed.panLeft,
    viewed.panRight⟩, ?_, furnished, shown⟩
  rw [Display.Fits] at fits ⊢
  rw [Game.unveilAroundPlayer]
  dsimp only at img3Off showX showY ⊢
  rwa [img3Off, showX, showY]

/-- The player exposes a part of the maze. -/
theorem unveilAroundPlayer (pictured : Pictured blocks game) :
    Pictured blocks (game.unveilAroundPlayer blocks).2 :=
  pictured.unveilNear game.playY le_rfl (Nat.le_succ _)

theorem step {event : GameEvent} (pictured : Pictured blocks game)
    (stepped : game.step blocks event = .ok next) : Pictured blocks next := by
  rw [Game.step] at stepped
  split_ifs at stepped with ground
  cases stepped
  cases event with
  | moveUp => exact pictured.moveUp
  | moveRight => exact pictured.moveRight
  | moveDown => exact pictured.moveDown
  | moveLeft => exact pictured.moveLeft
  | unveil => exact pictured.unveilAroundPlayer

/-- The first picture of a level is drawn as a whole. -/
theorem prepared {fuel : Nat} {random : Nat → Nat} {level : Int} {before : Game}
    (ready : prepareMazeLevel blocks fuel random level before = some (0, game)) :
    Pictured blocks game := by
  obtain ⟨maze, made, rfl⟩ := prepareMazeLevel_made ready
  obtain ⟨wide, high, columns, rows, furnished⟩ := Maze.makeMaze_furnished made
  have draws := Display.drawHorizLine_fills blocks maze
    (before.display.setViewWindow showMin showMin)
  have showX := draws.showX.trans (Display.setViewWindow_showX ..)
  have showY := draws.showY.trans (Display.setViewWindow_showY ..)
  refine ⟨⟨columns, rows, wide, showX, showY, le_rfl, ?_, le_rfl, ?_, ?_, ?_⟩,
    draws.fits (Display.setViewWindow_fits ..), furnished, ?_⟩
  · dsimp only [mazeMinXDim, showMin, scrollXDim, blockXDim] at wide ⊢
    omega
  · dsimp only [mazeMinYDim, showMin, scrollYDim, blockYDim] at high ⊢
    omega
  · intro panned
    exact absurd panned (lt_irrefl showMin)
  · intro _
    dsimp only
    decide
  · exact draws.completes (.empty _ _ _) Set.subset_union_right (Set.Subset.refl _)

end Pictured

/-- After every run of moves and exposures each pixel of the view window is that of its block in the
current maze. -/
theorem mazePicture_shown {blocks : Blocks} {fuel : Nat} {random : Nat → Nat} {level : Int}
    {before game final : Game} {events : List GameEvent}
    (ready : prepareMazeLevel blocks fuel random level before = some (0, game))
    (reached : run (Game.step blocks) game events = .ok final) :
    (final.display.showX = final.mapX ∧ final.display.showY = final.mapY ∧ final.display.Fits) ∧
      ∀ px py, final.mapX ≤ px → px < final.mapX + scrollXDim →
        final.mapY ≤ py → py < final.mapY + scrollYDim →
        final.display.build (final.display.img3Off + (px / 4 : Nat) + (py * scrollXWidth : Nat) +
            ((3 - px % 4) * scrollSize : Nat)) =
          blocks (findBlock final.maze (px / blockXDim) (py / blockYDim))
            (py % blockYDim * blockXDim + px % blockXDim) := by
  have pictured : Pictured blocks final :=
    run_invariant (Pictured blocks) (fun _ _ _ pictured _ stepped => pictured.step stepped)
      (Pictured.prepared ready) (along_true _ game events) reached
  have showX := pictured.viewed.showX
  have showY := pictured.viewed.showY
  refine ⟨⟨showX, showY, pictured.fits⟩, fun px py left right top bottom => ?_⟩
  exact pictured.shown (px, py) ⟨by omega, by omega⟩

def newGame : Game :=
  ⟨0, 0, 0, 0, smallest, ⟨fun _ => 0, buildBaseInit, 0, 0⟩, 0, 0⟩

def plainBlocks : Blocks := fun number _ => UInt8.ofNat number

/-- A walk down that scrolls. -/
def walk : List GameEvent :=
  .unveil :: List.replicate 106 .moveDown ++ [.unveil, .moveRight]

theorem mazePicture_shown_walk : ∃ game final,
    prepareMazeLevel plainBlocks 200 snake 1 newGame = some (0, game) ∧
      run (Game.step plainBlocks) game walk = .ok final ∧ final.display.showX = final.mapX := by
  have finishes : ((prepareMazeLevel plainBlocks 200 snake 1 newGame).map fun ready =>
      ready.1 = 0 && runCheck (Game.step plainBlocks) ready.2 walk fun final => final.mapY = 8) =
        some true := by decide +kernel
  obtain ⟨⟨result, game⟩, ready, passed⟩ := Option.map_eq_some_iff.1 finishes
  rw [Bool.and_eq_true] at passed
  obtain rfl : result = 0 := of_decide_eq_true passed.1
  obtain ⟨final, reached, _⟩ := runCheck_sound passed.2
  exact ⟨game, final, ready, reached, (mazePicture_shown ready reached).1.1⟩

end ComputerSystems.Mp2
