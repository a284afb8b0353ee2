import ComputerSystems.Proof.Mp2.PlayerPicture

namespace ComputerSystems.Mp2

open Library

namespace Mirrors

variable (blocks : Blocks) {game : Game} {ideal : Display} {spoiled : Set (Nat × Nat)}
variable {tint : Nat × Nat → Set UInt8}

/-- A scroll by one line up or down shows the same new line on both displays. -/
theorem scrollRow (mirrors : Mirrors ideal game.display spoiled tint)
    (viewed : Viewed { game with display := ideal }) (mapY row : Nat) (inside : row < scrollYDim)
    (rows : ∀ place, mapY ≤ place → place < mapY + scrollYDim →
      place = row + mapY ∨ game.mapY ≤ place ∧ place < game.mapY + scrollYDim) :
    Mirrors ((ideal.setViewWindow game.mapX mapY).drawHorizLine blocks game.maze row)
      ((game.display.setViewWindow game.mapX mapY).drawHorizLine blocks game.maze row)
      spoiled tint := by
  have inWindow (display : Display) :
      display.horizontal (row + display.showY) ⊆ display.window :=
    Display.horizontal_subset ⟨by omega, by omega⟩
  have first := ((ideal.setViewWindow game.mapX mapY).drawHorizLine_draws blocks game.maze
    inside).recolors (inWindow _)
  have second := ((game.display.setViewWindow game.mapX mapY).drawHorizLine_draws blocks game.maze
    inside).recolors (inWindow _)
  have lines : (game.display.setViewWindow game.mapX mapY).horizontal
      (row + (game.display.setViewWindow game.mapX mapY).showY) =
      (ideal.setViewWindow game.mapX mapY).horizontal
        (row + (ideal.setViewWindow game.mapX mapY).showY) := by
    simp only [Display.horizontal, Display.setViewWindow_showX, Display.setViewWindow_showY]
  rw [lines] at second
  refine mirrors.scroll first second (Display.window_subset_horizontal ?_ ?_)
  · rw [Display.setViewWindow_showX]
    exact viewed.showX.symm
  · rw [Display.setViewWindow_showY, show ideal.showY = game.mapY from viewed.showY]
    exact rows

theorem scrollColumn (mirrors : Mirrors ideal game.display spoiled tint)
    (viewed : Viewed { game with display := ideal }) (mapX column : Nat)
    (inside : column < scrollXDim)
    (columns : ∀ place, mapX ≤ place → place < mapX + scrollXDim →
      place = column + mapX ∨ game.mapX ≤ place ∧ place < game.mapX + scrollXDim) :
    Mirrors ((ideal.setViewWindow mapX game.mapY).drawVertLine blocks game.maze column)
      ((game.display.setViewWindow mapX game.mapY).drawVertLine blocks game.maze column)
      spoiled tint := by
  have inWindow (display : Display) :
      display.vertical (column + display.showX) ⊆ display.window :=
    Display.vertical_subset ⟨by omega, by omega⟩
  have first := ((ideal.setViewWindow mapX game.mapY).drawVertLine_draws blocks game.maze
    inside).recolors (inWindow _)
  have second := ((game.display.setViewWindow mapX game.mapY).drawVertLine_draws blocks game.maze
    inside).recolors (inWindow _)
  have lines : (game.display.setViewWindow mapX game.mapY).vertical
      (column + (game.display.setViewWindow mapX game.mapY).showX) =
      (ideal.setViewWindow mapX game.mapY).vertical
        (column + (ideal.setViewWindow mapX game.mapY).showX) := by
    simp only [Display.vertical, Display.setViewWindow_showX, Display.setViewWindow_showY]
  rw [lines] at second
  refine mirrors.scroll first second (Display.window_subset_vertical ?_ ?_)
  · rw [Display.setViewWindow_showY]
    exact viewed.showY.symm
  · rw [Display.setViewWindow_showX, show ideal.showX = game.mapX from viewed.showX]
    exact columns

/-- A move of the player with the picture beside the real display. -/
def Moves (spoiled : Set (Nat × Nat)) (tint : Nat × Nat → Set UInt8) (mirrored next : Game) :
    Prop :=
  mirrored = { next with display := mirrored.display } ∧
    Mirrors mirrored.display next.display spoiled tint

theorem moveUp (mirrors : Mirrors ideal game.display spoiled tint)
    (viewed : Viewed { game with display := ideal }) :
    Moves spoiled tint (({ game with display := ideal } : Game).moveUp blocks)
      (game.moveUp blocks) := by
  rw [Game.moveUp, Game.moveUp]
  dsimp only
  split_ifs with scrolls
  · have line := mirrors.scrollRow blocks viewed (game.mapY - 1) 0 (by decide)
      fun place low high => by omega
    exact ⟨rfl, line⟩
  · exact ⟨rfl, mirrors⟩

theorem moveDown (mirrors : Mirrors ideal game.display spoiled tint)
    (viewed : Viewed { game with display := ideal }) :
    Moves spoiled tint (({ game with display := ideal } : Game).moveDown blocks)
      (game.moveDown blocks) := by
  rw [Game.moveDown, Game.moveDown]
  dsimp only
  split_ifs with scrolls
  · have line := mirrors.scrollRow blocks viewed (game.mapY + 1) (scrollYDim - 1)
      (by decide) fun place low high => by omega
    exact ⟨rfl, line⟩
  · exact ⟨rfl, mirrors⟩

theorem moveRight (mirrors : Mirrors ideal game.display spoiled tint)
    (viewed : Viewed { game with display := ideal }) :
    Moves spoiled tint (({ game with display := ideal } : Game).moveRight blocks)
      (game.moveRight blocks) := by
  rw [Game.moveRight, Game.moveRight]
  dsimp only
  split_ifs with scrolls
  · have line := mirrors.scrollColumn blocks viewed (game.mapX + 1) (scrollXDim - 1)
      (by decide) fun place low high => by omega
    exact ⟨rfl, line⟩
  · exact ⟨rfl, mirrors⟩

theorem moveLeft (mirrors : Mirrors ideal game.display spoiled tint)
    (viewed : Viewed { game with display := ideal }) :
    Moves spoiled tint (({ game with display := ideal } : Game).moveLeft blocks)
      (game.moveLeft blocks) := by
  rw [Game.moveLeft, Game.moveLeft]
  dsimp only
  split_ifs with scrolls
  · have line := mirrors.scrollColumn blocks viewed (game.mapX - 1) 0 (by decide)
      fun place low high => by omega
    exact ⟨rfl, line⟩
  · exact ⟨rfl, mirrors⟩

/-- The exposure of the spaces around a position beside the real display. -/
theorem unveilAt (mirrors : Mirrors ideal game.display spoiled tint) (playX playY : Nat) :
    Moves spoiled tint (({ game with display := ideal } : Game).unveilAt blocks playX playY)
      (game.unveilAt blocks playX playY) := by
  have placed : Mirrors ideal
      ({ game with playX := playX, playY := playY } : Game).display spoiled tint := mirrors
  obtain ⟨_, shape, unveiled⟩ := placed.unveilAroundPlayer blocks
  refine ⟨?_, unveiled⟩
  rw [Game.unveilAt, Game.unveilAt]
  dsimp only at shape ⊢
  rw [shape]

end Mirrors

namespace Maze

/-- An open location that is uncovered. -/
structure Trodden (maze : Maze) (x y : Nat) : Prop where
  opened : maze.Open x y
  reached : maze.get x y &&& mazeReach ≠ 0

/-- Walls stay as they are and marks are not taken away. -/
structure Uncovers (maze next : Maze) : Prop where
  walls : SameWalls maze next
  reached : ∀ place, maze.cells place &&& mazeReach ≠ 0 → next.cells place &&& mazeReach ≠ 0

namespace Uncovers

variable {maze next after : Maze}

theorem refl (maze : Maze) : Uncovers maze maze := ⟨.refl maze, fun _ => id⟩

theorem trans (first : Uncovers maze next) (second : Uncovers next after) :
    Uncovers maze after where
  walls := first.walls.trans second.walls
  reached place mark := second.reached place (first.reached place mark)

theorem get_reached (uncovers : Uncovers maze next) {x y : Nat}
    (mark : maze.get x y &&& mazeReach ≠ 0) : next.get x y &&& mazeReach ≠ 0 := by
  rw [Maze.get, mazeIndex, uncovers.walls.xDim]
  exact uncovers.reached _ mark

theorem trodden (uncovers : Uncovers maze next) {x y : Nat} (trodden : maze.Trodden x y) :
    next.Trodden x y :=
  ⟨(uncovers.walls.open_iff x y).2 trodden.opened, uncovers.get_reached trodden.reached⟩

end Uncovers

end Maze

section Uncovering

variable (blocks : Blocks)

theorem put_reached {maze : Maze} {x y : Nat} {value : UInt8}
    (kept : maze.get x y &&& mazeReach ≠ 0 → value &&& mazeReach ≠ 0) (place : Nat)
    (mark : maze.cells place &&& mazeReach ≠ 0) :
    (maze.put x y value).cells place &&& mazeReach ≠ 0 := by
  by_cases here : place = maze.mazeIndex x y
  · subst here
    have stored : (maze.put x y value).cells (maze.mazeIndex x y) = value := Function.update_self ..
    rw [stored]
    exact kept mark
  · have same : (maze.put x y value).cells place = maze.cells place := Function.update_of_ne here ..
    rwa [same]

/-- A location inside the maze is uncovered after its exposure. -/
theorem unveilSpace_uncovers (x y : Int) (scene : Maze × Display) :
    Maze.Uncovers scene.1 (unveilSpace blocks x y scene).1 ∧
      ∀ u v : Nat, x = u → y = v → u ≤ 2 * scene.1.xDim → v ≤ 2 * scene.1.yDim →
        (unveilSpace blocks x y scene).1.get u v &&& mazeReach ≠ 0 := by
  have walls : Maze.SameWalls scene.1 (unveilSpace blocks x y scene).1 :=
    unveilSpace_walls x y scene
  rw [unveilSpace] at walls ⊢
  dsimp only at walls ⊢
  split_ifs at walls ⊢ with outside reached
  · exact ⟨.refl _, fun u v column row within below => by omega⟩
  · refine ⟨.refl _, fun u v column row within below => ?_⟩
    subst column row
    exact reached
  · have marked (cell : UInt8) : (cell ||| mazeReach) &&& mazeReach ≠ 0 :=
      or_and_ne_zero cell (by decide)
    refine ⟨⟨walls, fun place mark => put_reached (fun _ => marked _) place mark⟩, ?_⟩
    rintro u v rfl rfl within below
    rw [Int.toNat_natCast, Int.toNat_natCast, Maze.get_put_self]
    exact marked _

theorem checkForFruit_uncovers (x y : Nat) (scene : Maze × Display) :
    Maze.Uncovers scene.1 (checkForFruit blocks x y scene).2.1 := by
  have walls : Maze.SameWalls scene.1 (checkForFruit blocks x y scene).2.1 :=
    checkForFruit_walls x y scene
  have kept (cell : UInt8) : (cell &&& ~~~mazeFruit) &&& mazeReach = cell &&& mazeReach := by
    rw [UInt8.and_assoc]
    rfl
  rw [checkForFruit] at walls ⊢
  dsimp only at walls ⊢
  split_ifs at walls ⊢
  · exact .refl _
  · exact ⟨walls, fun place mark => put_reached (fun own => by rwa [kept]) place mark⟩
  · exact ⟨walls, fun place mark => put_reached (fun own => by rwa [kept]) place mark⟩
  · exact .refl _

/-- Each location in a list around another one is uncovered. -/
theorem unveilSpaces_uncovers (x y : Int) (around : List (Int × Int)) (scene : Maze × Display) :
    let after := (around.foldl (fun scene offset =>
      unveilSpace blocks (x + offset.1) (y + offset.2) scene) scene).1
    Maze.Uncovers scene.1 after ∧ ∀ offset ∈ around, ∀ u v : Nat, x + offset.1 = u →
      y + offset.2 = v → u ≤ 2 * scene.1.xDim → v ≤ 2 * scene.1.yDim →
        after.get u v &&& mazeReach ≠ 0 := by
  induction around generalizing scene with
  | nil => exact ⟨.refl _, fun offset member => absurd member List.not_mem_nil⟩
  | cons first rest ih =>
      intro after
      obtain ⟨one, own⟩ := unveilSpace_uncovers blocks (x + first.1) (y + first.2) scene
      obtain ⟨more, others⟩ := ih (unveilSpace blocks (x + first.1) (y + first.2) scene)
      refine ⟨one.trans more, fun offset member u v column row within below => ?_⟩
      rcases List.mem_cons.1 member with rfl | later
      · exact more.get_reached (own u v column row within below)
      · exact others offset later u v column row (one.walls.xDim ▸ within)
          (one.walls.yDim ▸ below)

/-- The locations next to a position are uncovered by the exposure around it. -/
theorem Game.unveilAt_uncovers (game : Game) (playX playY : Nat) :
    Maze.Uncovers game.maze (game.unveilAt blocks playX playY).maze ∧
      ∀ x y, playX / blockXDim ≤ x + 1 → x ≤ playX / blockXDim + 1 →
        playY / blockYDim ≤ y + 1 → y ≤ playY / blockYDim + 1 →
        x ≤ 2 * game.maze.xDim → y ≤ 2 * game.maze.yDim →
          (game.unveilAt blocks playX playY).maze.get x y &&& mazeReach ≠ 0 := by
  have fruited := checkForFruit_uncovers blocks (playX / blockXDim) (playY / blockYDim)
    (game.maze, game.display)
  obtain ⟨unveiled, near⟩ := unveilSpaces_uncovers blocks (playX / blockXDim : Nat)
    (playY / blockYDim : Nat) around
    (checkForFruit blocks (playX / blockXDim) (playY / blockYDim) (game.maze, game.display)).2
  refine ⟨fruited.trans unveiled, fun x y left right top bottom within below => ?_⟩
  have all : ∀ i ∈ [(-1 : Int), 0, 1], ∀ j ∈ [(-1 : Int), 0, 1], (i, j) ∈ around := by decide
  refine near ((x : Int) - (playX / blockXDim : Nat), (y : Int) - (playY / blockYDim : Nat))
    (all _ ?_ _ ?_) x y (by dsimp only; omega) (by dsimp only; omega)
      (fruited.walls.xDim ▸ within) (fruited.walls.yDim ▸ below)
  · simp only [List.mem_cons, List.not_mem_nil, or_false]
    omega
  · simp only [List.mem_cons, List.not_mem_nil, or_false]
    omega

/-- The exposure of a location keeps the fruit everywhere. -/
theorem unveilSpace_fruit (x y : Int) (scene : Maze × Display) (place : Nat) :
    (unveilSpace blocks x y scene).1.cells place &&& mazeFruit =
      scene.1.cells place &&& mazeFruit := by
  rw [unveilSpace]
  dsimp only
  split_ifs
  · rfl
  · rfl
  · dsimp only [Maze.put]
    rw [Function.update_apply]
    split_ifs with here
    · rw [or_and_of_disjoint _ (by decide), here]
      rfl
    · rfl

theorem unveilSpaces_fruit (x y : Int) (around : List (Int × Int)) (scene : Maze × Display)
    (place : Nat) :
    (around.foldl (fun scene offset =>
      unveilSpace blocks (x + offset.1) (y + offset.2) scene) scene).1.cells place &&& mazeFruit =
        scene.1.cells place &&& mazeFruit := by
  induction around generalizing scene with
  | nil => rfl
  | cons offset rest ih => exact (ih _).trans (unveilSpace_fruit blocks _ _ scene place)

/-- Only the fruit at the player is eaten. -/
theorem checkForFruit_fruit (x y : Nat) (scene : Maze × Display) (place : Nat)
    (found : (checkForFruit blocks x y scene).2.1.cells place &&& mazeFruit ≠ 0) :
    scene.1.cells place &&& mazeFruit ≠ 0 := by
  have eaten (found : (scene.1.put x y (scene.1.get x y &&& ~~~mazeFruit)).cells place &&&
      mazeFruit ≠ 0) : scene.1.cells place &&& mazeFruit ≠ 0 := by
    dsimp only [Maze.put] at found
    rw [Function.update_apply] at found
    split_ifs at found with here
    · rw [UInt8.and_assoc] at found
      exact absurd UInt8.and_zero found
    · exact found
  rw [checkForFruit] at found
  dsimp only at found
  split_ifs at found
  · exact found
  · exact eaten found
  · exact eaten found
  · exact found

/-- There is no fruit where the player was exposed. -/
theorem Game.unveilAt_bare (game : Game) {playX playY : Nat}
    (inside : playX / blockXDim < 2 * game.maze.xDim)
    (below : playY / blockYDim < 2 * game.maze.yDim) :
    hasFruit ((game.unveilAt blocks playX playY).maze.get (playX / blockXDim)
      (playY / blockYDim)) = false := by
  have walls := (game.unveilAt_uncovers blocks playX playY).1.walls
  have kept := unveilSpaces_fruit blocks (playX / blockXDim : Nat) (playY / blockYDim : Nat) around
    (checkForFruit blocks (playX / blockXDim) (playY / blockYDim) (game.maze, game.display)).2
    (game.maze.mazeIndex (playX / blockXDim) (playY / blockYDim))
  rw [hasFruit, Maze.get, Maze.mazeIndex, walls.xDim]
  refine decide_eq_false (not_not.2 (Eq.trans kept ?_))
  rw [checkForFruit]
  dsimp only
  rw [if_neg (by omega)]
  by_cases fruit :
      ((game.maze.get (playX / blockXDim) (playY / blockYDim) &&& mazeFruit) / mazeFruit1).toNat ≠ 0
  · rw [if_pos fruit]
    dsimp only [Maze.put]
    rw [Function.update_self, UInt8.and_assoc]
    exact UInt8.and_zero
  · rw [if_neg fruit]
    exact (fnum_eq_zero _).1 (not_not.1 fruit)

end Uncovering

end ComputerSystems.Mp2
