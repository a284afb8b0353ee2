import ComputerSystems.Construction.Mp2.RtcThread
import ComputerSystems.Library.Run
import ComputerSystems.Proof.Mp2.MazePicture

namespace ComputerSystems.Mp2

open Library

namespace Maze

/-- The mazes have the same size and walls. -/
structure SameWalls (maze other : Maze) : Prop where
  xDim : other.xDim = maze.xDim
  yDim : other.yDim = maze.yDim
  wall : ∀ place, other.cells place &&& mazeWall = maze.cells place &&& mazeWall

/-- An open location inside the boundary. -/
structure Floor (maze : Maze) (x y : Nat) : Prop where
  left : 0 < x
  right : x < 2 * maze.xDim
  top : 0 < y
  bottom : y < 2 * maze.yDim
  opened : maze.Open x y

variable {maze other third : Maze}

namespace SameWalls

theorem refl (maze : Maze) : SameWalls maze maze := ⟨rfl, rfl, fun _ => rfl⟩

theorem trans (first : SameWalls maze other) (second : SameWalls other third) :
    SameWalls maze third :=
  ⟨second.xDim.trans first.xDim, second.yDim.trans first.yDim,
    fun place => (second.wall place).trans (first.wall place)⟩

theorem open_iff (same : SameWalls maze other) (x y : Nat) :
    other.Open x y ↔ maze.Open x y := by
  rw [Open, Open, Maze.get, Maze.get, mazeIndex, mazeIndex, same.xDim, same.wall]

theorem walled (same : SameWalls maze other) (walled : maze.Walled) : other.Walled := by
  intro x y inside below edge
  rw [same.open_iff]
  rw [same.xDim, same.yDim] at edge
  exact walled x y (same.xDim ▸ inside) (same.yDim ▸ below) edge

theorem floor (same : SameWalls maze other) {x y : Nat} (floor : maze.Floor x y) :
    other.Floor x y :=
  ⟨floor.left, same.xDim ▸ floor.right, floor.top, same.yDim ▸ floor.bottom,
    (same.open_iff x y).2 floor.opened⟩

end SameWalls


end Maze

section Exploring

variable {blocks : Blocks}

/-- The exposure of a location keeps the walls. -/
theorem unveilSpace_walls (x y : Int) (scene : Maze × Display) :
    Maze.SameWalls scene.1 (unveilSpace blocks x y scene).1 := by
  rw [unveilSpace]
  dsimp only
  split_ifs
  · exact .refl _
  · exact .refl _
  · exact ⟨rfl, rfl, Maze.put_walls (or_and_of_disjoint _ (by decide))⟩

theorem checkForFruit_walls (x y : Nat) (scene : Maze × Display) :
    Maze.SameWalls scene.1 (checkForFruit blocks x y scene).2.1 := by
  rw [checkForFruit]
  dsimp only
  split_ifs
  all_goals
    first
    | exact .refl _
    | exact ⟨rfl, rfl, Maze.put_walls (by rw [UInt8.and_assoc]; rfl)⟩

theorem unveilSpaces_walls (x y : Int) (around : List (Int × Int)) (scene : Maze × Display) :
    Maze.SameWalls scene.1 (around.foldl (fun scene offset =>
      unveilSpace blocks (x + offset.1) (y + offset.2) scene) scene).1 := by
  induction around generalizing scene with
  | nil => exact .refl _
  | cons offset rest ih => exact (unveilSpace_walls _ _ scene).trans (ih _)

/-- The moves, drawings and exposures of the game keep the walls. -/
structure Game.Keeps (game next : Game) : Prop where
  walls : Maze.SameWalls game.maze next.maze
  playX : next.playX = game.playX
  playY : next.playY = game.playY

namespace Game

variable {game next : Game}

theorem Keeps.draw {blocks : Blocks} (keeps : game.Keeps next) (lastDir : Dir) :
    game.Keeps (next.drawPlayer blocks lastDir) :=
  ⟨keeps.walls, keeps.playX, keeps.playY⟩

theorem unveilAroundPlayer_keeps (blocks : Blocks) (game : Game) :
    game.Keeps (game.unveilAroundPlayer blocks).2 :=
  ⟨(checkForFruit_walls _ _ (game.maze, game.display)).trans (unveilSpaces_walls _ _ _ _), rfl, rfl⟩

theorem unveilAhead_keeps (blocks : Blocks) (dir : Dir) (game : Game) :
    game.Keeps ((game.unveilAhead blocks dir).drawPlayer blocks dir) := by
  have anywhere (playX playY : Nat) : game.Keeps (game.unveilAt blocks playX playY) :=
    ⟨(unveilAroundPlayer_keeps blocks { game with playX := playX, playY := playY }).walls, rfl, rfl⟩
  cases dir with
  | up => exact (anywhere game.playX (game.playY + blockYDim / 2)).draw _
  | left => exact (anywhere (game.playX + blockXDim / 2) game.playY).draw _
  | right => exact (anywhere game.playX game.playY).draw _
  | down => exact (anywhere game.playX game.playY).draw _
  | stop => exact (anywhere game.playX game.playY).draw _

end Game

end Exploring

theorem Dir.isOpposite_cases {dir nextDir : Dir} (opposite : dir.isOpposite nextDir = true) :
    (dir = .up ∧ nextDir = .down) ∨ (dir = .down ∧ nextDir = .up) ∨
      (dir = .left ∧ nextDir = .right) ∨ (dir = .right ∧ nextDir = .left) := by
  cases dir <;> cases nextDir <;> simp_all [Dir.isOpposite]

/-- The player is on its way to a square: the pixels that remain, and the squares at both ends. -/
inductive Track (maze : Maze) : Dir → Int → Nat → Nat → Prop
  | up {x y rest : Nat} (short : rest ≤ blockYDim) (stop : maze.Floor x y)
      (start : maze.Floor x (y + 1)) :
      Track maze .up rest (x * blockXDim) (y * blockYDim + rest)
  | right {x y rest gone : Nat} (whole : gone + rest = blockXDim) (start : maze.Floor x y)
      (stop : maze.Floor (x + 1) y) :
      Track maze .right rest (x * blockXDim + gone) (y * blockYDim)
  | down {x y rest gone : Nat} (whole : gone + rest = blockYDim) (start : maze.Floor x y)
      (stop : maze.Floor x (y + 1)) :
      Track maze .down rest (x * blockXDim) (y * blockYDim + gone)
  | left {x y rest : Nat} (short : rest ≤ blockXDim) (stop : maze.Floor x y)
      (start : maze.Floor (x + 1) y) :
      Track maze .left rest (x * blockXDim + rest) (y * blockYDim)

/-- The player stands on a square. -/
inductive Square (maze : Maze) : Nat → Nat → Prop
  | floor {x y : Nat} (floor : maze.Floor x y) : Square maze (x * blockXDim) (y * blockYDim)

namespace Track

variable {maze : Maze} {dir nextDir : Dir} {rest : Int} {playX playY : Nat}

/-- The way back is the rest of the way between the two squares. -/
theorem back (track : Track maze dir rest playX playY) (opposite : dir.isOpposite nextDir = true) :
    Track maze nextDir (blockXDim - rest) playX playY := by
  have remains {gone rest whole : Nat} (sum : gone + rest = whole) :
      (whole : Int) - rest = gone := by
    rw [← sum, Nat.cast_add, add_sub_cancel_right]
  rcases Dir.isOpposite_cases opposite with ⟨rfl, rfl⟩ | ⟨rfl, rfl⟩ | ⟨rfl, rfl⟩ | ⟨rfl, rfl⟩
  · obtain ⟨short, stop, start⟩ := track
    rw [← Nat.cast_sub short]
    exact .down (Nat.add_sub_cancel' short) stop start
  · obtain _ | _ | ⟨whole, start, stop⟩ := track
    rw [remains whole]
    exact .up (whole ▸ Nat.le_add_right _ _) start stop
  · obtain _ | _ | _ | ⟨short, stop, start⟩ := track
    rw [← Nat.cast_sub short]
    exact .right (Nat.add_sub_cancel' short) stop start
  · obtain _ | ⟨whole, start, stop⟩ := track
    rw [remains whole]
    exact .left (whole ▸ Nat.le_add_right _ _) start stop

/-- The way ends on a square. -/
theorem arrived (track : Track maze dir 0 playX playY) : Square maze playX playY := by
  generalize zero : (0 : Int) = rest at track
  cases track with
  | up short stop start =>
      obtain rfl := Int.natCast_eq_zero.1 zero.symm
      exact .floor stop
  | left short stop start =>
      obtain rfl := Int.natCast_eq_zero.1 zero.symm
      exact .floor stop
  | right whole start stop =>
      obtain rfl := Int.natCast_eq_zero.1 zero.symm
      rw [Nat.add_zero] at whole
      subst whole
      rw [← Nat.succ_mul]
      exact .floor stop
  | down whole start stop =>
      obtain rfl := Int.natCast_eq_zero.1 zero.symm
      rw [Nat.add_zero] at whole
      subst whole
      rw [← Nat.succ_mul]
      exact .floor stop

/-- One pixel of the way. -/
theorem gone {game : Game} (track : Track game.maze dir rest game.playX game.playY)
    (blocks : Blocks) (more : rest ≠ 0) :
    let next := game.go blocks dir
    next.maze = game.maze ∧ Track game.maze dir (rest - 1) next.playX next.playY := by
  intro next
  have less {count : Nat} (positive : (count : Int) ≠ 0) : ∃ fewer, count = fewer + 1 :=
    Nat.exists_eq_succ_of_ne_zero (Nat.cast_ne_zero.1 positive)
  generalize playX_eq : game.playX = playX at track
  generalize playY_eq : game.playY = playY at track
  cases track with
  | up short stop start =>
      obtain ⟨fewer, rfl⟩ := less more
      have moved : next.maze = game.maze ∧ next.playX = game.playX ∧
          next.playY = game.playY - 1 := by
        dsimp only [next, Game.go, Game.drawBlock, Game.moveUp]
        split_ifs <;> exact ⟨rfl, rfl, rfl⟩
      refine ⟨moved.1, ?_⟩
      rw [moved.2.1, moved.2.2, playX_eq, playY_eq, Nat.cast_succ, add_sub_cancel_right]
      exact .up (Nat.le_of_succ_le short) stop start
  | left short stop start =>
      obtain ⟨fewer, rfl⟩ := less more
      have moved : next.maze = game.maze ∧ next.playY = game.playY ∧
          next.playX = game.playX - 1 := by
        dsimp only [next, Game.go, Game.drawBlock, Game.moveLeft]
        split_ifs <;> exact ⟨rfl, rfl, rfl⟩
      refine ⟨moved.1, ?_⟩
      rw [moved.2.1, moved.2.2, playX_eq, playY_eq, Nat.cast_succ, add_sub_cancel_right]
      exact .left (Nat.le_of_succ_le short) stop start
  | down whole start stop =>
      obtain ⟨fewer, rfl⟩ := less more
      have moved : next.maze = game.maze ∧ next.playX = game.playX ∧
          next.playY = game.playY + 1 := by
        dsimp only [next, Game.go, Game.drawBlock, Game.moveDown]
        split_ifs <;> exact ⟨rfl, rfl, rfl⟩
      refine ⟨moved.1, ?_⟩
      rw [moved.2.1, moved.2.2, playX_eq, playY_eq, Nat.cast_succ, add_sub_cancel_right]
      exact .down (by rwa [Nat.succ_add_eq_add_succ]) start stop
  | right whole start stop =>
      obtain ⟨fewer, rfl⟩ := less more
      have moved : next.maze = game.maze ∧ next.playY = game.playY ∧
          next.playX = game.playX + 1 := by
        dsimp only [next, Game.go, Game.drawBlock, Game.moveRight]
        split_ifs <;> exact ⟨rfl, rfl, rfl⟩
      refine ⟨moved.1, ?_⟩
      rw [moved.2.1, moved.2.2, playX_eq, playY_eq, Nat.cast_succ, add_sub_cancel_right]
      exact .right (by rwa [Nat.succ_add_eq_add_succ]) start stop

theorem keep {other : Maze} (track : Track maze dir rest playX playY)
    (same : Maze.SameWalls maze other) : Track other dir rest playX playY := by
  cases track with
  | up short stop start => exact .up short (same.floor stop) (same.floor start)
  | right whole start stop => exact .right whole (same.floor start) (same.floor stop)
  | down whole start stop => exact .down whole (same.floor start) (same.floor stop)
  | left short stop start => exact .left short (same.floor stop) (same.floor start)

end Track

theorem Square.keep {maze other : Maze} {playX playY : Nat} (square : Square maze playX playY)
    (same : Maze.SameWalls maze other) : Square other playX playY := by
  obtain ⟨floor⟩ := square
  exact .floor (same.floor floor)

/-- A direction that is open leads from a square to the next one inside the boundary. -/
theorem Square.leave {maze : Maze} {dir : Dir} {playX playY : Nat} {behind : Bool}
    (walled : maze.Walled) (square : Square maze playX playY) (moves : dir ≠ .stop)
    (opened : findOpenDirections maze (playX / blockXDim : Nat) (playY / blockYDim : Nat) behind
      dir = true) : Track maze dir blockXDim playX playY := by
  obtain @⟨x, y, here⟩ := square
  have inner (u v : Nat) (inside : u ≤ 2 * maze.xDim) (below : v ≤ 2 * maze.yDim)
      (bit : decide (maze.cells (maze.place u v).toNat &&& mazeWall = 0) = true) :
      maze.Floor u v := by
    have index : (maze.place u v).toNat = maze.mazeIndex u v := by
      rw [Maze.place, Maze.mazeIndex]
      norm_cast
    have way : maze.Open u v := by
      rw [Maze.Open, Maze.get, ← index]
      exact of_decide_eq_true bit
    have edge : ¬ (u = 0 ∨ v = 0 ∨ u = 2 * maze.xDim ∨ v = 2 * maze.yDim) := fun edge =>
      walled u v inside below edge way
    exact ⟨by omega, by omega, by omega, by omega, way⟩
  obtain ⟨left, right, top, bottom, _⟩ := id here
  rw [Nat.mul_div_cancel _ (by decide), Nat.mul_div_cancel _ (by decide)] at opened
  cases dir with
  | stop => exact absurd rfl moves
  | up =>
      obtain ⟨low, rfl⟩ : ∃ low, y = low + 1 := ⟨y - 1, by omega⟩
      rw [findOpenDirections, Nat.cast_succ, add_sub_cancel_right] at opened
      rw [Nat.succ_mul]
      exact .up le_rfl (inner x low (by omega) (by omega) opened) here
  | right => exact .right (Nat.zero_add _) here (inner (x + 1) y (by omega) (by omega) opened)
  | down => exact .down (Nat.zero_add _) here (inner x (y + 1) (by omega) (by omega) opened)
  | left =>
      obtain ⟨low, rfl⟩ : ∃ low, x = low + 1 := ⟨x - 1, by omega⟩
      rw [findOpenDirections, Nat.cast_succ, add_sub_cancel_right] at opened
      rw [Nat.succ_mul]
      exact .left le_rfl (inner low y (by omega) (by omega) opened) here

/-- The player is off the walls: it stands on a square, or some pixels of a way remain. -/
structure OffWalls (play : Play) : Prop where
  walled : play.game.maze.Walled
  footing : (play.moveCnt = 0 ∧ Square play.game.maze play.game.playX play.game.playY) ∨
    (0 < play.moveCnt ∧ play.moveCnt < blockXDim ∧
      Track play.game.maze play.dir play.moveCnt play.game.playX play.game.playY)

namespace OffWalls

variable {blocks : Blocks} {play next : Play} {request : Request}

theorem start {game : Game} (walled : game.maze.Walled) (opened : game.maze.Open 1 1)
    (wide : 0 < game.maze.xDim) (high : 0 < game.maze.yDim) : OffWalls (.start blocks game) := by
  have kept := Game.unveilAroundPlayer_keeps blocks
    { game with playX := blockXDim, playY := blockYDim }
  have corner : Square game.maze (1 * blockXDim) (1 * blockYDim) :=
    .floor ⟨by decide, by omega, by decide, by omega, opened⟩
  exact ⟨kept.walls.walled walled, .inl ⟨rfl, corner.keep kept.walls⟩⟩

theorem turnBack (off : OffWalls play) (nextDir : Dir) : OffWalls (play.turnBack nextDir) := by
  rw [Play.turnBack]
  by_cases turns : nextDir ≠ play.dir ∧ play.dir.isOpposite nextDir
  · rw [if_pos turns]
    refine ⟨off.walled, ?_⟩
    rcases off.footing with ⟨none_left, square⟩ | ⟨some_left, below, track⟩
    · rw [none_left]
      exact .inl ⟨rfl, square⟩
    · have same : (if play.dir = .up ∨ play.dir = .down then (blockYDim : Int) - play.moveCnt
          else blockXDim - play.moveCnt) = blockXDim - play.moveCnt := ite_self _
      rw [if_pos some_left, same]
      exact .inr ⟨by dsimp only; omega, by dsimp only; omega, track.back turns.2⟩
  · rw [if_neg turns]
    exact off

/-- The player may go: it stops on a square, or the way that remains is not longer than one. -/
structure Ready (play : Play) : Prop where
  walled : play.game.maze.Walled
  footing : (play.dir = .stop ∧ play.moveCnt = 0 ∧
      Square play.game.maze play.game.playX play.game.playY) ∨
    (0 < play.moveCnt ∧ play.moveCnt ≤ blockXDim ∧
      Track play.game.maze play.dir play.moveCnt play.game.playX play.game.playY)

/-- A new square ends the level or leaves the player ready to go. -/
theorem newSquare (off : OffWalls play) (blocks : Blocks) (request : Request)
    (arrived : play.moveCnt = 0) (going : play.gotoNextLevel = false) :
    let next := play.newSquare blocks request
    (next.gotoNextLevel = true → OffWalls next) ∧ (next.gotoNextLevel = false → Ready next) := by
  have square : Square play.game.maze play.game.playX play.game.playY := by
    rcases off.footing with ⟨_, square⟩ | ⟨some_left, _⟩
    · exact square
    · omega
  obtain ⟨walls, playX, playY⟩ := Game.unveilAroundPlayer_keeps blocks play.game
  have walled := walls.walled off.walled
  have stands := square.keep walls
  rw [← playX, ← playY] at stands
  rw [Play.newSquare]
  generalize play.game.unveilAroundPlayer blocks = unveiled at *
  dsimp only
  rw [← playX, ← playY]
  by_cases won : unveiled.1 = true
  · rw [if_pos won]
    exact ⟨fun _ => ⟨walled, .inl ⟨arrived, stands⟩⟩, fun lost => absurd lost Bool.noConfusion⟩
  · rw [if_neg won]
    have leaves (dir : Dir) (moves : dir ≠ .stop)
        (opened : findOpenDirections unveiled.2.maze (unveiled.2.playX / blockXDim : Nat)
          (unveiled.2.playY / blockYDim : Nat) request.behind dir = true) :
        Track unveiled.2.maze dir blockXDim unveiled.2.playX unveiled.2.playY :=
      stands.leave walled moves opened
    generalize findOpenDirections unveiled.2.maze (unveiled.2.playX / blockXDim : Nat)
      (unveiled.2.playY / blockYDim : Nat) request.behind = isOpen at leaves ⊢
    generalize (if isOpen request.nextDir = true then request.nextDir else play.dir) = dir
    rw [going]
    by_cases stopped : dir = .stop
    · rw [if_pos stopped]
      exact ⟨fun lost => absurd lost Bool.noConfusion,
        fun _ => ⟨walled, .inl ⟨stopped, arrived, stands⟩⟩⟩
    · rw [if_neg stopped]
      by_cases way : isOpen dir = true
      · have track := leaves dir stopped way
        have positive : (0 : Int) < blockXDim := by decide
        rw [if_neg (not_not.2 way), ite_self]
        exact ⟨fun lost => absurd lost Bool.noConfusion,
          fun _ => ⟨walled, .inr ⟨positive, le_rfl, track⟩⟩⟩
      · rw [if_pos way]
        exact ⟨fun lost => absurd lost Bool.noConfusion,
          fun _ => ⟨walled, .inl ⟨rfl, arrived, stands⟩⟩⟩

theorem move (ready : Ready play) : OffWalls (play.move blocks) := by
  rw [Play.move]
  obtain ⟨walled, ⟨stopped, none_left, square⟩ | ⟨some_left, below, track⟩⟩ := ready
  · rw [if_pos stopped]
    exact ⟨walled, .inl ⟨none_left, square⟩⟩
  · have moves : play.dir ≠ .stop := fun stopped => by
      rw [stopped] at track
      cases track
    obtain ⟨same, gone⟩ := track.gone blocks (ne_of_gt some_left)
    obtain ⟨walls, playX, playY⟩ :=
      Game.unveilAhead_keeps blocks play.dir (play.game.go blocks play.dir)
    rw [if_neg moves]
    rw [same] at walls
    refine ⟨walls.walled walled, ?_⟩
    dsimp only
    rw [playX, playY]
    by_cases last : play.moveCnt - 1 = 0
    · rw [last] at gone ⊢
      exact .inl ⟨rfl, gone.arrived.keep walls⟩
    · exact .inr ⟨by omega, by omega, gone.keep walls⟩

/-- Each tick keeps the player off the walls. -/
theorem tick (off : OffWalls play) (ticked : play.tick blocks request = .ok next) :
    OffWalls next := by
  rw [Play.tick] at ticked
  by_cases done : play.gotoNextLevel = true
  · rw [if_pos done] at ticked
    cases ticked
  · rw [if_neg done] at ticked
    have turned := off.turnBack request.nextDir
    have going : (play.turnBack request.nextDir).gotoNextLevel = false := by
      rw [Play.turnBack]
      split_ifs <;> exact eq_false_of_ne_true done
    generalize play.turnBack request.nextDir = current at *
    dsimp only at ticked
    by_cases arrived : current.moveCnt = 0
    · rw [if_pos arrived] at ticked
      obtain ⟨wins, goes⟩ := turned.newSquare blocks request arrived going
      cases level : (current.newSquare blocks request).gotoNextLevel with
      | true =>
          rw [if_pos level] at ticked
          cases ticked
          exact wins level
      | false =>
          rw [if_neg (by rw [level]; decide)] at ticked
          cases ticked
          exact move (goes level)
    · rw [if_neg arrived, if_neg (by rw [going]; decide)] at ticked
      cases ticked
      obtain ⟨walled, ⟨none_left, _⟩ | ⟨some_left, below, track⟩⟩ := turned
      · exact absurd none_left arrived
      · exact move ⟨walled, .inr ⟨some_left, below.le, track⟩⟩

end OffWalls

/-- The position some pixels ahead. -/
def Dir.ahead (playX playY pixels : Int) : Dir → Int × Int
  | .up => (playX, playY - pixels)
  | .right => (playX + pixels, playY)
  | .down => (playX, playY + pixels)
  | .left => (playX - pixels, playY)
  | .stop => (playX, playY)

/-- The upper left corner of a square. -/
def Aligned (position : Int × Int) : Prop :=
  (blockXDim : Int) ∣ position.1 ∧ (blockYDim : Int) ∣ position.2

/-- The picture of the player shares a pixel with a location. -/
def Game.Overlaps (game : Game) (x y : Nat) : Prop :=
  (x * blockXDim < game.playX + blockXDim ∧ game.playX < (x + 1) * blockXDim) ∧
    y * blockYDim < game.playY + blockYDim ∧ game.playY < (y + 1) * blockYDim

theorem Square.aligned {maze : Maze} {playX playY : Nat} (square : Square maze playX playY) :
    blockXDim ∣ playX ∧ blockYDim ∣ playY := by
  cases square
  exact ⟨Nat.dvd_mul_left _ _, Nat.dvd_mul_left _ _⟩

/-- A way keeps to its row or column. -/
theorem Track.straight {maze : Maze} {dir : Dir} {rest : Int} {playX playY : Nat}
    (track : Track maze dir rest playX playY) : blockXDim ∣ playX ∨ blockYDim ∣ playY := by
  cases track with
  | up => exact .inl (Nat.dvd_mul_left _ _)
  | right => exact .inr (Nat.dvd_mul_left _ _)
  | down => exact .inl (Nat.dvd_mul_left _ _)
  | left => exact .inr (Nat.dvd_mul_left _ _)

/-- The way ends at the next square ahead. -/
theorem Track.isLeast {maze : Maze} {dir : Dir} {rest : Int} {playX playY : Nat}
    (track : Track maze dir rest playX playY) (positive : 0 < rest) (below : rest < blockXDim) :
    IsLeast {pixels : Int | 0 < pixels ∧ Aligned (dir.ahead playX playY pixels)} rest := by
  constructor
  · refine ⟨positive, ?_⟩
    cases track <;> constructor <;> dsimp only [Dir.ahead, blockXDim, blockYDim] at * <;> omega
  · rintro pixels ⟨some_way, column, row⟩
    cases track <;> dsimp only [Dir.ahead, blockXDim, blockYDim] at * <;> omega

/-- The squares at both ends of the way are the only ones under the player. -/
theorem Track.opened {maze : Maze} {dir : Dir} {rest : Int} {game : Game}
    (track : Track maze dir rest game.playX game.playY) {x y : Nat} (under : game.Overlaps x y) :
    maze.Open x y := by
  obtain ⟨⟨left, right⟩, top, bottom⟩ := under
  generalize game.playX = playX at *
  generalize game.playY = playY at *
  cases track with
  | @up column row rest short stop start =>
      obtain rfl : x = column := by dsimp only [blockXDim] at *; omega
      obtain rfl | rfl : y = row ∨ y = row + 1 := by dsimp only [blockYDim] at *; omega
      · exact stop.opened
      · exact start.opened
  | @down column row rest gone whole start stop =>
      obtain rfl : x = column := by dsimp only [blockXDim] at *; omega
      obtain rfl | rfl : y = row ∨ y = row + 1 := by dsimp only [blockYDim] at *; omega
      · exact start.opened
      · exact stop.opened
  | @right column row rest gone whole start stop =>
      obtain rfl : y = row := by dsimp only [blockYDim] at *; omega
      obtain rfl | rfl : x = column ∨ x = column + 1 := by dsimp only [blockXDim] at *; omega
      · exact start.opened
      · exact stop.opened
  | @left column row rest short stop start =>
      obtain rfl : y = row := by dsimp only [blockYDim] at *; omega
      obtain rfl | rfl : x = column ∨ x = column + 1 := by dsimp only [blockXDim] at *; omega
      · exact stop.opened
      · exact start.opened

theorem Square.opened {maze : Maze} {game : Game} (square : Square maze game.playX game.playY)
    {x y : Nat} (under : game.Overlaps x y) : maze.Open x y := by
  obtain ⟨⟨left, right⟩, top, bottom⟩ := under
  generalize game.playX = playX at *
  generalize game.playY = playY at *
  obtain @⟨column, row, floor⟩ := square
  obtain rfl : x = column := by dsimp only [blockXDim] at *; omega
  obtain rfl : y = row := by dsimp only [blockYDim] at *; omega
  exact floor.opened

/-- Whatever is asked for at each tick, the player is never in a wall. -/
theorem player_offWalls {blocks : Blocks} {game : Game} {play : Play} {requests : List Request}
    (wide : 0 < game.maze.xDim) (high : 0 < game.maze.yDim) (walled : game.maze.Walled)
    (opened : game.maze.Open 1 1)
    (reached : run (Play.tick blocks) (.start blocks game) requests = .ok play) :
    (blockXDim ∣ play.game.playX ∨ blockYDim ∣ play.game.playY) ∧
      (play.moveCnt = 0 → blockXDim ∣ play.game.playX ∧ blockYDim ∣ play.game.playY) ∧
      0 ≤ play.moveCnt ∧
      (0 < play.moveCnt → play.moveCnt ≤ 11 ∧ play.dir ≠ .stop ∧
        IsLeast {pixels : Int | 0 < pixels ∧
          Aligned (play.dir.ahead play.game.playX play.game.playY pixels)} play.moveCnt) ∧
      ∀ x y, play.game.Overlaps x y → play.game.maze.Open x y := by
  have off : OffWalls play :=
    run_invariant OffWalls (fun _ _ _ off _ ticked => off.tick ticked)
      (OffWalls.start walled opened wide high) (along_true _ _ requests) reached
  obtain ⟨_, ⟨none_left, square⟩ | ⟨some_left, below, track⟩⟩ := off
  · refine ⟨.inl square.aligned.1, fun _ => square.aligned, none_left.ge, fun more => ?_,
      fun x y => square.opened⟩
    omega
  · have moves : play.dir ≠ .stop := fun stopped => by
      rw [stopped] at track
      cases track
    refine ⟨track.straight, fun none_left => ?_, some_left.le, fun _ => ⟨?_, moves, ?_⟩,
      fun x y => track.opened⟩
    · omega
    · dsimp only [blockXDim] at below
      omega
    · exact track.isLeast some_left below

def hallGame : Game := { newGame with maze := hall }

/-- Some ticks down, a turn back on the way, and a run to the next square. -/
def wander : List Request :=
  ⟨.stop, true⟩ :: List.replicate 3 ⟨.down, false⟩ ++ [⟨.up, false⟩]

theorem player_offWalls_wander : ∃ play,
    run (Play.tick plainBlocks) (.start plainBlocks hallGame) wander = .ok play ∧
      play.moveCnt = 2 ∧ play.dir = .up ∧
        (blockXDim ∣ play.game.playX ∨ blockYDim ∣ play.game.playY) := by
  have passed : runCheck (Play.tick plainBlocks) (.start plainBlocks hallGame) wander
      (fun play => play.moveCnt = 2 ∧ play.dir = .up) = true := by decide +kernel
  obtain ⟨play, reached, last⟩ := runCheck_sound passed
  obtain ⟨moveCnt, dir⟩ := of_decide_eq_true last
  have corner : hallGame.maze.Open 1 1 := show hall.get 1 1 &&& mazeWall = 0 by decide
  exact ⟨play, reached, moveCnt, dir,
    (player_offWalls (by decide) (by decide) hall_walled corner reached).1⟩

end ComputerSystems.Mp2
