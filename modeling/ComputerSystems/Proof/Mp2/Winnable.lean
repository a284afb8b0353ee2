import ComputerSystems.Library.Reach
import ComputerSystems.Proof.Mp2.StatusFollows

namespace ComputerSystems.Mp2

open Library

namespace Maze

/-- What an exposure leaves: the walls, some of the fruit, and the exit. -/
structure Visited (maze next : Maze) : Prop where
  walls : SameWalls maze next
  fruit : ∀ place, next.cells place &&& mazeFruit ≠ 0 → maze.cells place &&& mazeFruit ≠ 0
  exitX : next.exitX = maze.exitX
  exitY : next.exitY = maze.exitY
  accounted : maze.Accounted → next.Accounted

namespace Visited

variable {maze next after : Maze}

theorem refl (maze : Maze) : Visited maze maze := ⟨.refl maze, fun _ => id, rfl, rfl, id⟩

theorem trans (first : Visited maze next) (second : Visited next after) : Visited maze after :=
  ⟨first.walls.trans second.walls, fun place found => first.fruit place (second.fruit place found),
    second.exitX.trans first.exitX, second.exitY.trans first.exitY,
    second.accounted ∘ first.accounted⟩

/-- No fruit appears at a location. -/
theorem hasFruit (visited : Visited maze next) {x y : Nat}
    (found : hasFruit (next.get x y) = true) : Mp2.hasFruit (maze.get x y) = true := by
  rw [Maze.get, mazeIndex, visited.walls.xDim] at found
  exact decide_eq_true (visited.fruit _ (of_decide_eq_true found))

theorem fruitCells (visited : Visited maze next) : next.fruitCells ⊆ maze.fruitCells := by
  intro cell member
  obtain ⟨bounds, found⟩ := Finset.mem_filter.1 member
  rw [visited.walls.xDim, visited.walls.yDim] at bounds
  exact Finset.mem_filter.2 ⟨bounds, visited.hasFruit found⟩

end Visited

end Maze

section Visiting

variable (blocks : Blocks)

theorem unveilSpace_visited (x y : Int) (scene : Maze × Display) :
    Maze.Visited scene.1 (unveilSpace blocks x y scene).1 := by
  refine ⟨unveilSpace_walls x y scene, fun place found => ?_, ?_, ?_,
    fun accounted => accounted.unveilSpace x y⟩
  · rwa [unveilSpace_fruit] at found
  · rw [unveilSpace]
    dsimp only
    split_ifs <;> rfl
  · rw [unveilSpace]
    dsimp only
    split_ifs <;> rfl

theorem checkForFruit_visited (x y : Nat) (scene : Maze × Display) :
    Maze.Visited scene.1 (checkForFruit blocks x y scene).2.1 := by
  refine ⟨checkForFruit_walls x y scene, checkForFruit_fruit blocks x y scene, ?_, ?_,
    fun accounted => accounted.checkForFruit x y⟩
  · rw [checkForFruit]
    dsimp only
    split_ifs <;> rfl
  · rw [checkForFruit]
    dsimp only
    split_ifs <;> rfl

theorem unveilSpaces_visited (x y : Int) (offsets : List (Int × Int)) (scene : Maze × Display) :
    Maze.Visited scene.1 (offsets.foldl (fun scene offset =>
      unveilSpace blocks (x + offset.1) (y + offset.2) scene) scene).1 := by
  induction offsets generalizing scene with
  | nil => exact .refl _
  | cons offset rest ih => exact (unveilSpace_visited blocks _ _ scene).trans (ih _)

/-- An exposure keeps what the level needs. -/
theorem Game.unveilAt_visited (game : Game) (playX playY : Nat) :
    Maze.Visited game.maze (game.unveilAt blocks playX playY).maze :=
  (checkForFruit_visited blocks _ _ (game.maze, game.display)).trans
    (unveilSpaces_visited blocks _ _ around _)

end Visiting

/-- A level that is not won yet, on the way or on a square. -/
structure Underway (play : Play) : Prop where
  going : play.gotoNextLevel = false
  off : OffWalls play
  hall : play.game.maze.Hall
  accounted : play.game.maze.Accounted

/-- Requests in one of the four directions. -/
def Directed (request : Request) : Prop := request.nextDir ≠ .stop

/-- The player has arrived somewhere, with what was there to be eaten or uncovered before. -/
structure Arrived (maze : Maze) (position : Int × Int) (play : Play) : Prop where
  underway : Underway play
  visited : maze.Visited play.game.maze
  arrived : play.moveCnt = 0
  place : ((play.game.playX : Int), (play.game.playY : Int)) = position

section Moving

variable {blocks : Blocks} {play next : Play} {dir : Dir} {rest : Int}

/-- The end of a way stays where it is while the player goes there. -/
theorem Game.go_ahead {game : Game} (track : Track game.maze dir rest game.playX game.playY)
    (more : 0 < rest) (blocks : Blocks) (pixels : Int) :
    dir.ahead (game.go blocks dir).playX (game.go blocks dir).playY (pixels - 1) =
      dir.ahead game.playX game.playY pixels := by
  generalize playX_eq : game.playX = playX at track
  generalize playY_eq : game.playY = playY at track
  cases track with
  | up short stop start =>
      obtain ⟨_, column, row⟩ := game.moveUp_moved blocks
      rw [playX_eq] at column
      rw [playY_eq] at row
      rw [go]
      dsimp only [drawBlock, Dir.ahead]
      rw [column, row]
      refine Prod.ext rfl ?_
      dsimp only
      omega
  | right whole start stop =>
      obtain ⟨_, column, row⟩ := game.moveRight_moved blocks
      rw [playX_eq] at column
      rw [playY_eq] at row
      rw [go]
      dsimp only [drawBlock, Dir.ahead]
      rw [column, row]
      refine Prod.ext ?_ rfl
      dsimp only
      omega
  | down whole start stop =>
      obtain ⟨_, column, row⟩ := game.moveDown_moved blocks
      rw [playX_eq] at column
      rw [playY_eq] at row
      rw [go]
      dsimp only [drawBlock, Dir.ahead]
      rw [column, row]
      refine Prod.ext rfl ?_
      dsimp only
      omega
  | left short stop start =>
      obtain ⟨_, column, row⟩ := game.moveLeft_moved blocks
      rw [playX_eq] at column
      rw [playY_eq] at row
      rw [go]
      dsimp only [drawBlock, Dir.ahead]
      rw [column, row]
      refine Prod.ext ?_ rfl
      dsimp only
      omega

/-- A move on the way. -/
theorem Play.move_way (blocks : Blocks)
    (track : Track play.game.maze play.dir play.moveCnt play.game.playX play.game.playY)
    (more : 0 < play.moveCnt) :
    let next := play.move blocks
    play.game.maze.Visited next.game.maze ∧ next.moveCnt = play.moveCnt - 1 ∧
      next.dir = play.dir ∧ next.gotoNextLevel = play.gotoNextLevel ∧
        next.dir.ahead next.game.playX next.game.playY next.moveCnt =
          play.dir.ahead play.game.playX play.game.playY play.moveCnt := by
  intro next
  have moves : play.dir ≠ .stop := fun stopped => by
    rw [stopped] at track
    cases track
  have ahead := Game.go_ahead track more blocks play.moveCnt
  have maze := play.game.go_maze blocks play.dir
  dsimp only [next]
  rw [move, if_neg moves]
  dsimp only
  generalize play.game.go blocks play.dir = gone at *
  obtain ⟨playX, playY, unveiled, _⟩ := gone.unveilAhead_eq blocks play.dir
  rw [unveiled]
  refine ⟨?_, rfl, rfl, rfl, ahead⟩
  rw [← maze]
  exact gone.unveilAt_visited blocks playX playY

theorem Dir.ahead_zero (dir : Dir) (playX playY : Int) :
    dir.ahead playX playY 0 = (playX, playY) := by
  cases dir <;> simp [ahead]

/-- The player goes on to the end of its way. -/
theorem Underway.arrive (underway : Underway play) (blocks : Blocks) :
    Leads (Play.tick blocks) Directed (Arrived play.game.maze
      (play.dir.ahead play.game.playX play.game.playY play.moveCnt)) play := by
  generalize left_eq : play.moveCnt.toNat = left
  induction left generalizing play with
  | zero =>
      have arrived : play.moveCnt = 0 := by
        rcases underway.off.footing with ⟨none_left, _⟩ | ⟨some_left, _⟩
        · exact none_left
        · omega
      refine .here ⟨underway, .refl _, arrived, ?_⟩
      rw [arrived, Dir.ahead_zero]
  | succ left ih =>
      obtain ⟨walled, ⟨none_left, _⟩ | ⟨some_left, below, track⟩⟩ := id underway.off
      · omega
      · obtain ⟨visited, count, dir, level, ahead⟩ := play.move_way blocks track some_left
        have straight : play.turnBack play.dir = play := by
          rw [Play.turnBack, if_neg fun turns => turns.1 rfl]
        have ticked : play.tick blocks ⟨play.dir, true⟩ = .ok (play.move blocks) := by
          rw [Play.tick]
          simp only [straight, some_left.ne', underway.going, Bool.false_eq_true, if_false]
        have moves : play.dir ≠ .stop := fun stopped => by
          rw [stopped] at track
          cases track
        have next : Underway (play.move blocks) :=
          ⟨level.trans underway.going, underway.off.tick ticked,
            visited.walls.hall underway.hall, visited.accounted underway.accounted⟩
        have rest := ih next (by omega)
        rw [ahead] at rest
        have asked : Directed ⟨play.dir, true⟩ := moves
        refine .step_then asked ticked (rest.mono fun final arrived => ?_)
        exact ⟨arrived.underway, visited.trans arrived.visited, arrived.arrived, arrived.place⟩

/-- A direction is open when the location in it is. -/
theorem findOpenDirections_open {maze : Maze} {x y u v : Nat} (moves : dir ≠ .stop)
    (next : dir.ahead x y 1 = ((u : Int), (v : Int))) (behind : Bool) (opened : maze.Open u v) :
    findOpenDirections maze x y behind dir = true := by
  have index : (maze.place (u : Int) (v : Int)).toNat = maze.mazeIndex u v := by
    rw [Maze.place, Maze.mazeIndex]
    norm_cast
  have bit : decide (maze.cells (maze.place u v).toNat &&& mazeWall = 0) = true := by
    rw [index]
    exact decide_eq_true opened
  cases dir with
  | stop => exact absurd rfl moves
  | up =>
      obtain ⟨column, row⟩ := Prod.mk.inj next
      rw [← column, ← row] at bit
      exact bit
  | right =>
      obtain ⟨column, row⟩ := Prod.mk.inj next
      rw [← column, ← row] at bit
      exact bit
  | down =>
      obtain ⟨column, row⟩ := Prod.mk.inj next
      rw [← column, ← row] at bit
      exact bit
  | left =>
      obtain ⟨column, row⟩ := Prod.mk.inj next
      rw [← column, ← row] at bit
      exact bit

/-- A new square is left in the direction that is asked for when it is open. -/
theorem Play.newSquare_goes {request : Request}
    (lost : (play.game.unveilAroundPlayer blocks).1 = false)
    (opened : findOpenDirections (play.game.unveilAroundPlayer blocks).2.maze
      (play.game.playX / blockXDim : Nat) (play.game.playY / blockYDim : Nat) request.behind
        request.nextDir = true) (moves : request.nextDir ≠ .stop) :
    play.newSquare blocks request = { play with
      game := (play.game.unveilAroundPlayer blocks).2
      dir := request.nextDir
      moveCnt := blockXDim } := by
  rw [newSquare]
  simp only [lost, opened, moves, Bool.false_eq_true, if_false, if_true, not_true_eq_false,
    ite_self]

/-- The next location is one block away. -/
theorem Dir.ahead_block {x y u v : Nat} (next : dir.ahead x y 1 = ((u : Int), (v : Int))) :
    dir.ahead (x * blockXDim : Nat) (y * blockYDim : Nat) blockXDim =
      (((u * blockXDim : Nat) : Int), ((v * blockYDim : Nat) : Int)) := by
  cases dir
  all_goals
    obtain ⟨column, row⟩ := Prod.mk.inj next
    dsimp only [ahead, blockXDim, blockYDim]
    refine Prod.ext ?_ ?_ <;> dsimp only <;> omega

theorem Play.turnBack_arrived (nextDir : Dir) (arrived : play.moveCnt = 0) :
    (play.turnBack nextDir).moveCnt = 0 := by
  rw [turnBack]
  split_ifs with turns more
  · omega
  · omega
  · exact arrived
  · exact arrived

/-- The player wins, or goes to the next location in an open direction. -/
theorem Underway.step (underway : Underway play) (blocks : Blocks) (arrived : play.moveCnt = 0)
    {x y u v : Nat} (place : play.game.playX = x * blockXDim ∧ play.game.playY = y * blockYDim)
    (moves : dir ≠ .stop) (next : dir.ahead x y 1 = ((u : Int), (v : Int)))
    (floor : play.game.maze.Floor u v) :
    Leads (Play.tick blocks) Directed (fun final => final.gotoNextLevel = true ∨
      Arrived play.game.maze ((u * blockXDim : Nat), (v * blockYDim : Nat)) final) play := by
  have asked : Directed ⟨dir, true⟩ := moves
  have game := (play.turnBack_rests dir).game
  have count := play.turnBack_arrived dir arrived
  have going := (play.turnBack_level dir).trans underway.going
  have off := underway.off.turnBack dir
  have ticks : play.tick blocks ⟨dir, true⟩ =
      let ready := (play.turnBack dir).newSquare blocks ⟨dir, true⟩
      if ready.gotoNextLevel then .ok ready else .ok (ready.move blocks) := by
    rw [Play.tick]
    simp only [underway.going, count, Bool.false_eq_true, if_false, if_true]
  generalize play.turnBack dir = turned at *
  obtain ⟨_, poses⟩ := off.newSquare blocks ⟨dir, true⟩ count going
  have visited : play.game.maze.Visited (turned.game.unveilAroundPlayer blocks).2.maze := by
    rw [← game]
    exact turned.game.unveilAt_visited blocks turned.game.playX turned.game.playY
  cases won : (turned.game.unveilAroundPlayer blocks).1 with
  | true =>
      have level : (turned.newSquare blocks ⟨dir, true⟩).gotoNextLevel = true := by
        rw [Play.newSquare]
        simp only [won, if_true]
      have ticked : play.tick blocks ⟨dir, true⟩ = .ok (turned.newSquare blocks ⟨dir, true⟩) := by
        rw [ticks]
        exact if_pos level
      exact .step_then asked ticked (.here (.inl level))
  | false =>
      have opened : (turned.game.unveilAroundPlayer blocks).2.maze.Open u v :=
        (visited.walls.open_iff u v).2 floor.opened
      have here : (turned.game.playX / blockXDim : Nat) = x ∧
          (turned.game.playY / blockYDim : Nat) = y := by
        rw [game, place.1, place.2]
        exact ⟨Nat.mul_div_cancel _ (by decide), Nat.mul_div_cancel _ (by decide)⟩
      have isOpen : findOpenDirections (turned.game.unveilAroundPlayer blocks).2.maze
          (turned.game.playX / blockXDim : Nat) (turned.game.playY / blockYDim : Nat) true dir =
            true := by
        rw [here.1, here.2]
        exact findOpenDirections_open moves next true opened
      have ready : turned.newSquare blocks ⟨dir, true⟩ = { turned with
          game := (turned.game.unveilAroundPlayer blocks).2, dir := dir, moveCnt := blockXDim } :=
        Play.newSquare_goes won isOpen moves
      rw [ready] at ticks poses
      have ticked : play.tick blocks ⟨dir, true⟩ = .ok (({ turned with
          game := (turned.game.unveilAroundPlayer blocks).2, dir := dir, moveCnt := blockXDim } :
            Play).move blocks) := by
        rw [ticks]
        exact if_neg (by rw [going]; decide)
      obtain ⟨_, ⟨stopped, _⟩ | ⟨some_left, _, track⟩⟩ := poses going
      · exact absurd stopped moves
      · obtain ⟨moved, _, _, level, ahead⟩ := Play.move_way blocks track some_left
        dsimp only at moved level ahead
        have whole := visited.trans moved
        have after : Underway _ := ⟨level.trans going, underway.off.tick ticked,
          whole.walls.hall underway.hall, whole.accounted underway.accounted⟩
        refine .step_then asked ticked ((after.arrive blocks).mono fun final ends => .inr ?_)
        refine ⟨ends.underway, whole.trans ends.visited, ends.arrived, ends.place.trans ?_⟩
        rw [ahead]
        have position : (turned.game.unveilAroundPlayer blocks).2.playX = x * blockXDim ∧
            (turned.game.unveilAroundPlayer blocks).2.playY = y * blockYDim := by
          rw [game]
          exact place
        rw [position.1, position.2]
        exact Dir.ahead_block next

end Moving

/-- The locations inside the boundary. -/
def Maze.Inside (maze : Maze) (x y : Nat) : Prop :=
  (0 < x ∧ x < 2 * maze.xDim) ∧ 0 < y ∧ y < 2 * maze.yDim

theorem Maze.Hall.floor {maze : Maze} (hall : maze.Hall) {x y : Nat} (inside : maze.Inside x y) :
    maze.Floor x y :=
  ⟨inside.1.1, inside.1.2, inside.2.1, inside.2.2,
    hall.opened x y inside.1.1 inside.1.2 inside.2.1 inside.2.2⟩

theorem Maze.Room.inside {maze : Maze} {x y : Nat} (room : maze.Room x y) : maze.Inside x y := by
  obtain ⟨oddX, oddY, right, bottom⟩ := room
  exact ⟨⟨by omega, right⟩, by omega, bottom⟩

/-- The steps between two locations along a row and a column. -/
def steps (x y u v : Nat) : Nat := x - u + (u - x) + (y - v + (v - y))

/-- Some direction leads closer to a location inside. -/
theorem Maze.Inside.closer {maze : Maze} {x y u v : Nat} (here : maze.Inside x y)
    (there : maze.Inside u v) (apart : steps x y u v ≠ 0) :
    ∃ dir : Dir, dir ≠ .stop ∧ ∃ a b : Nat, dir.ahead x y 1 = ((a : Int), (b : Int)) ∧
      maze.Inside a b ∧ steps a b u v < steps x y u v := by
  obtain ⟨⟨left, right⟩, top, bottom⟩ := here
  obtain ⟨⟨otherLeft, otherRight⟩, otherTop, otherBottom⟩ := there
  rw [steps] at apart
  rcases lt_trichotomy x u with less | same | more
  · refine ⟨.right, by decide, x + 1, y, rfl, ⟨⟨?_, ?_⟩, top, bottom⟩, ?_⟩
    all_goals
      try rw [steps, steps]
      omega
  · rcases lt_trichotomy y v with less | level | more
    · refine ⟨.down, by decide, x, y + 1, rfl, ⟨⟨left, right⟩, ?_, ?_⟩, ?_⟩
      all_goals
        try rw [steps, steps]
        omega
    · omega
    · refine ⟨.up, by decide, x, y - 1, ?_, ⟨⟨left, right⟩, ?_, ?_⟩, ?_⟩
      · rw [Dir.ahead, Nat.cast_sub top]
        rfl
      all_goals
        try rw [steps, steps]
        omega
  · refine ⟨.left, by decide, x - 1, y, ?_, ⟨⟨?_, ?_⟩, top, bottom⟩, ?_⟩
    · rw [Dir.ahead, Nat.cast_sub left]
      rfl
    all_goals
      try rw [steps, steps]
      omega

section Winning

variable {blocks : Blocks} {play : Play}

/-- The player wins, or goes to any location inside. -/
theorem Underway.walk (underway : Underway play) (blocks : Blocks) (arrived : play.moveCnt = 0)
    {x y u v : Nat} (place : play.game.playX = x * blockXDim ∧ play.game.playY = y * blockYDim)
    (here : play.game.maze.Inside x y) (there : play.game.maze.Inside u v) :
    Leads (Play.tick blocks) Directed (fun final => final.gotoNextLevel = true ∨
      Arrived play.game.maze ((u * blockXDim : Nat), (v * blockYDim : Nat)) final) play := by
  generalize far : steps x y u v = distance
  induction distance using Nat.strongRecOn generalizing play x y with
  | ind distance ih =>
      by_cases close : steps x y u v = 0
      · have same : x = u ∧ y = v := by
          rw [steps] at close
          omega
        refine .here (.inr ⟨underway, .refl _, arrived, ?_⟩)
        rw [place.1, place.2, same.1, same.2]
      · obtain ⟨dir, moves, a, b, next, inside, closer⟩ := here.closer there close
        refine (underway.step blocks arrived place moves next (underway.hall.floor inside)).bind
          fun middle ends => ?_
        rcases ends with won | ends
        · exact .here (.inl won)
        · have position := Prod.mk.inj ends.place
          have walls := ends.visited.walls
          refine (ih (steps a b u v) (far ▸ closer) ends.underway ends.arrived
            ⟨Int.ofNat_inj.1 position.1, Int.ofNat_inj.1 position.2⟩ ?_ ?_ rfl).mono
              fun final reached => reached.imp_right fun there => ?_
          · rw [Maze.Inside, walls.xDim, walls.yDim]
            exact inside
          · rw [Maze.Inside, walls.xDim, walls.yDim]
            exact there
          · exact ⟨there.underway, ends.visited.trans there.visited, there.arrived, there.place⟩

theorem Play.move_visited (blocks : Blocks) (play : Play) :
    play.game.maze.Visited (play.move blocks).game.maze := by
  rw [move]
  split_ifs with stopped
  · exact .refl _
  · obtain ⟨playX, playY, ahead, _⟩ :=
      (play.game.go blocks play.dir).unveilAhead_eq blocks play.dir
    have visited := (play.game.go blocks play.dir).unveilAt_visited blocks playX playY
    rw [Game.go_maze] at visited
    dsimp only
    rw [ahead]
    exact visited

theorem Play.newSquare_visited (blocks : Blocks) (request : Request) (play : Play) :
    (play.newSquare blocks request).game = (play.game.unveilAroundPlayer blocks).2 ∧
      ((play.game.unveilAroundPlayer blocks).1 = true →
        (play.newSquare blocks request).gotoNextLevel = true) := by
  rw [newSquare]
  dsimp only
  split_ifs with won
  · exact ⟨rfl, fun _ => rfl⟩
  all_goals exact ⟨rfl, fun level => absurd level won⟩

/-- A tick on a square looks around and may win. -/
theorem Underway.look (underway : Underway play) (blocks : Blocks) (arrived : play.moveCnt = 0) :
    ∃ next, play.tick blocks ⟨.up, true⟩ = .ok next ∧
      (next.gotoNextLevel = true ∨ Underway next) ∧
      (play.game.unveilAroundPlayer blocks).2.maze.Visited next.game.maze ∧
      ((play.game.unveilAroundPlayer blocks).1 = true → next.gotoNextLevel = true) := by
  have game := (play.turnBack_rests .up).game
  have count := play.turnBack_arrived .up arrived
  have ticks : play.tick blocks ⟨.up, true⟩ =
      let ready := (play.turnBack .up).newSquare blocks ⟨.up, true⟩
      if ready.gotoNextLevel then .ok ready else .ok (ready.move blocks) := by
    rw [Play.tick]
    simp only [underway.going, count, Bool.false_eq_true, if_false, if_true]
  obtain ⟨scene, wins⟩ := (play.turnBack .up).newSquare_visited blocks ⟨.up, true⟩
  rw [game] at scene wins
  have looked : play.game.maze.Visited (play.game.unveilAroundPlayer blocks).2.maze :=
    play.game.unveilAt_visited blocks play.game.playX play.game.playY
  generalize (play.turnBack .up).newSquare blocks ⟨.up, true⟩ = ready at *
  cases level : ready.gotoNextLevel with
  | true =>
      refine ⟨ready, ticks.trans (if_pos level), .inl level, ?_, fun _ => level⟩
      rw [scene]
      exact .refl _
  | false =>
      have ticked : play.tick blocks ⟨.up, true⟩ = .ok (ready.move blocks) :=
        ticks.trans (if_neg (by rw [level]; decide))
      have moved := ready.move_visited blocks
      rw [scene] at moved
      have whole := looked.trans moved
      have going : (ready.move blocks).gotoNextLevel = false := by
        rw [Play.move]
        split_ifs <;> exact level
      refine ⟨_, ticked, .inr ⟨going, underway.off.tick ticked, whole.walls.hall underway.hall,
        whole.accounted underway.accounted⟩, moved, fun won => ?_⟩
      exact Bool.noConfusion (level.symm.trans (wins won))

/-- The player on a fruit eats it. -/
theorem Underway.eat (underway : Underway play) (blocks : Blocks) (arrived : play.moveCnt = 0)
    {u v : Nat} (place : play.game.playX = u * blockXDim ∧ play.game.playY = v * blockYDim)
    (there : play.game.maze.Inside u v) :
    Leads (Play.tick blocks) Directed (fun final => final.gotoNextLevel = true ∨
      Underway final ∧ play.game.maze.Visited final.game.maze ∧
        hasFruit (final.game.maze.get u v) = false) play := by
  obtain ⟨next, ticked, goes, visited, _⟩ := underway.look blocks arrived
  have here : play.game.playX / blockXDim = u ∧ play.game.playY / blockYDim = v := by
    rw [place.1, place.2]
    exact ⟨Nat.mul_div_cancel _ (by decide), Nat.mul_div_cancel _ (by decide)⟩
  have bare := play.game.unveilAt_bare blocks (here.1 ▸ there.1.2) (here.2 ▸ there.2.2)
  rw [here.1, here.2] at bare
  have asked : Directed ⟨.up, true⟩ := fun stopped => Dir.noConfusion stopped
  refine .step_then asked ticked (.here (goes.imp_right fun on => ⟨on, ?_, ?_⟩))
  · exact (play.game.unveilAt_visited blocks _ _).trans visited
  · refine eq_false_of_ne_true fun found => ?_
    exact Bool.noConfusion (bare.symm.trans (visited.hasFruit found))

/-- The player on the exit wins when no fruit is left. -/
theorem Underway.exit (underway : Underway play) (blocks : Blocks) (arrived : play.moveCnt = 0)
    (place : play.game.playX = play.game.maze.exitX * blockXDim ∧
      play.game.playY = play.game.maze.exitY * blockYDim)
    (eaten : play.game.maze.fruitCells = ∅) :
    Leads (Play.tick blocks) Directed (fun final => final.gotoNextLevel = true) play := by
  obtain ⟨next, ticked, _, _, wins⟩ := underway.look blocks arrived
  have here : play.game.playX / blockXDim = play.game.maze.exitX ∧
      play.game.playY / blockYDim = play.game.maze.exitY := by
    rw [place.1, place.2]
    exact ⟨Nat.mul_div_cancel _ (by decide), Nat.mul_div_cancel _ (by decide)⟩
  have looked : play.game.maze.Visited (play.game.unveilAroundPlayer blocks).2.maze :=
    play.game.unveilAt_visited blocks play.game.playX play.game.playY
  have bare : (play.game.unveilAroundPlayer blocks).2.maze.fruitCells = ∅ :=
    Finset.subset_empty.1 (by rw [← eaten]; exact looked.fruitCells)
  have empty : (play.game.unveilAroundPlayer blocks).2.maze.nFruits = 0 := by
    rw [(looked.accounted underway.accounted).furnished.fruited.card_fruitCells, bare]
    rfl
  obtain ⟨_, _, _, room, exit⟩ := looked.accounted underway.accounted
  have won : (play.game.unveilAroundPlayer blocks).1 = true := by
    show checkForWin (play.game.unveilAroundPlayer blocks).2.maze _ _ = true
    rw [here.1, here.2, ← looked.exitX, ← looked.exitY, checkForWin]
    simp only [Bool.and_eq_true, decide_eq_true_eq]
    exact ⟨⟨⟨room.2.2.1, room.2.2.2⟩, empty⟩, exit⟩
  have asked : Directed ⟨.up, true⟩ := fun stopped => Dir.noConfusion stopped
  exact .step_then asked ticked (.here (wins won))

/-- The square of a player who is not on the way. -/
theorem Underway.square (underway : Underway play) (arrived : play.moveCnt = 0) :
    ∃ x y, (play.game.playX = x * blockXDim ∧ play.game.playY = y * blockYDim) ∧
      play.game.maze.Inside x y := by
  rcases underway.off.footing with ⟨_, square⟩ | ⟨some_left, _⟩
  · generalize playX_eq : play.game.playX = playX at square
    generalize playY_eq : play.game.playY = playY at square
    obtain @⟨x, y, floor⟩ := square
    exact ⟨x, y, ⟨rfl, rfl⟩, ⟨floor.left, floor.right⟩, floor.top, floor.bottom⟩
  · omega

theorem Maze.Visited.inside {maze next : Maze} (visited : maze.Visited next) {x y : Nat}
    (inside : maze.Inside x y) : next.Inside x y := by
  rw [Maze.Inside, visited.walls.xDim, visited.walls.yDim]
  exact inside

/-- A fruit that is gone leaves fewer. -/
theorem Maze.Visited.fewer {maze next : Maze} (visited : maze.Visited next) {u v : Nat}
    (found : (u, v) ∈ maze.fruitCells) (gone : Mp2.hasFruit (next.get u v) = false) :
    next.fruitCells.card < maze.fruitCells.card := by
  refine Finset.card_lt_card ⟨visited.fruitCells, fun same => ?_⟩
  exact Bool.noConfusion (gone.symm.trans (Finset.mem_filter.1 (same found)).2)

/-- The player on a square wins, or gets to a fruit and eats it. -/
theorem Underway.hunt (underway : Underway play) (blocks : Blocks) (arrived : play.moveCnt = 0) :
    Leads (Play.tick blocks) Directed (fun final => final.gotoNextLevel = true ∨
      Underway final ∧ final.game.maze.fruitCells.card < play.game.maze.fruitCells.card) play := by
  obtain ⟨x, y, place, here⟩ := underway.square arrived
  rcases play.game.maze.fruitCells.eq_empty_or_nonempty with eaten | ⟨⟨u, v⟩, found⟩
  · have there := underway.accounted.exitRoom.inside
    refine (underway.walk blocks arrived place here there).bind fun middle ends => ?_
    rcases ends with won | ends
    · exact .here (.inl won)
    · have position := Prod.mk.inj ends.place
      have last : middle.game.maze.fruitCells = ∅ :=
        Finset.subset_empty.1 (by rw [← eaten]; exact ends.visited.fruitCells)
      refine (ends.underway.exit blocks ends.arrived ?_ last).mono fun final won => .inl won
      rw [ends.visited.exitX, ends.visited.exitY]
      exact ⟨Int.ofNat_inj.1 position.1, Int.ofNat_inj.1 position.2⟩
  · obtain ⟨bounds, fruit⟩ := Finset.mem_filter.1 found
    have column := Finset.mem_range.1 (Finset.mem_product.1 bounds).1
    have there := (underway.accounted.furnished.fruited.room u v column fruit).inside
    refine (underway.walk blocks arrived place here there).bind fun middle ends => ?_
    rcases ends with won | ends
    · exact .here (.inl won)
    · have position := Prod.mk.inj ends.place
      refine (ends.underway.eat blocks ends.arrived ⟨Int.ofNat_inj.1 position.1,
        Int.ofNat_inj.1 position.2⟩ (ends.visited.inside there)).mono fun final eats => ?_
      refine eats.imp_right fun ⟨on, visited, gone⟩ => ⟨on, ?_⟩
      exact (ends.visited.trans visited).fewer found gone

/-- Every level that is not won yet can be won. -/
theorem Underway.win (underway : Underway play) (blocks : Blocks) :
    Leads (Play.tick blocks) Directed (fun final => final.gotoNextLevel = true) play := by
  refine Leads.of_rank Underway (fun play => play.game.maze.fruitCells.card)
    (fun play underway => ?_) underway
  refine (underway.arrive blocks).bind fun middle ends => ?_
  refine (ends.underway.hunt blocks ends.arrived).mono fun final hunted => ?_
  exact hunted.imp_right fun ⟨on, fewer⟩ =>
    ⟨on, fewer.trans_le (Finset.card_le_card ends.visited.fruitCells)⟩

theorem Play.tick_visited {next : Play} {request : Request}
    (ticked : play.tick blocks request = .ok next) :
    play.game.maze.Visited next.game.maze := by
  have arrives (ready : Play) :
      ready.game.maze.Visited (ready.newSquare blocks request).game.maze := by
    rw [(ready.newSquare_visited blocks request).1]
    exact ready.game.unveilAt_visited blocks _ _
  rw [Play.tick] at ticked
  split_ifs at ticked
  dsimp only at ticked
  rw [← (play.turnBack_rests request.nextDir).game]
  generalize play.turnBack request.nextDir = turned at *
  split_ifs at ticked
  all_goals cases ticked
  · exact arrives turned
  · exact (arrives turned).trans (Play.move_visited blocks _)
  · exact .refl _
  · exact turned.move_visited blocks

end Winning

theorem prepared_accounted {blocks : Blocks} {fuel : Nat} {random : Nat → Nat} {level : Int}
    {before game : Game}
    (ready : prepareMazeLevel blocks fuel random level before = some (0, game)) :
    game.maze.Accounted := by
  obtain ⟨maze, made, rfl⟩ := prepareMazeLevel_made ready
  exact Maze.makeMaze_accounted made

/-- What holds from the start of a level, won or not. -/
structure Begun (play : Play) : Prop where
  off : OffWalls play
  hall : play.game.maze.Hall
  accounted : play.game.maze.Accounted

theorem Begun.start {blocks : Blocks} {fuel : Nat} {random : Nat → Nat} {level : Int}
    {before game : Game}
    (ready : prepareMazeLevel blocks fuel random level before = some (0, game)) :
    Begun (.start blocks game) := by
  obtain ⟨hall, _, _⟩ := prepared_hall ready
  have accounted := prepared_accounted ready
  have wide := accounted.wide
  have high := accounted.high
  have corner : game.maze.Open 1 1 := hall.opened 1 1 (by decide) (by omega) (by decide) (by omega)
  have visited : game.maze.Visited (Play.start blocks game).game.maze :=
    ({ game with playX := blockXDim, playY := blockYDim } : Game).unveilAt_visited blocks _ _
  exact ⟨.start hall.walled corner wide high, visited.walls.hall hall, visited.accounted accounted⟩

/-- From every state of a level that is not won, some run of the ticks, all of them with a
direction asked for, wins the level. -/
theorem level_winnable {blocks : Blocks} {fuel : Nat} {random : Nat → Nat} {level : Int}
    {before game : Game} {play : Play} {requests : List Request}
    (ready : prepareMazeLevel blocks fuel random level before = some (0, game))
    (reached : run (Play.tick blocks) (.start blocks game) requests = .ok play)
    (going : play.gotoNextLevel = false) :
    ∃ more final, (∀ request ∈ more, request.nextDir ≠ .stop) ∧
      run (Play.tick blocks) play more = .ok final ∧ final.gotoNextLevel = true := by
  have begun : Begun play :=
    run_invariant Begun (fun play request next begun _ ticked =>
      have visited := Play.tick_visited ticked
      ⟨begun.off.tick ticked, visited.walls.hall begun.hall, visited.accounted begun.accounted⟩)
      (.start ready) (along_true _ _ requests) reached
  exact Underway.win ⟨going, begun.off, begun.hall, begun.accounted⟩ blocks

theorem level_winnable_wander : ∃ game play,
    prepareMazeLevel plainBlocks 200 snake 1 newGame = some (0, game) ∧
      run (Play.tick plainBlocks) (.start plainBlocks game) wander = .ok play ∧
        ∃ more final, (∀ request ∈ more, request.nextDir ≠ .stop) ∧
          run (Play.tick plainBlocks) play more = .ok final ∧ final.gotoNextLevel = true := by
  have finishes : ((prepareMazeLevel plainBlocks 200 snake 1 newGame).map fun ready =>
      ready.1 = 0 && runCheck (Play.tick plainBlocks) (.start plainBlocks ready.2) wander
        fun play => play.gotoNextLevel = false) = some true := by decide +kernel
  obtain ⟨⟨result, game⟩, ready, passed⟩ := Option.map_eq_some_iff.1 finishes
  rw [Bool.and_eq_true] at passed
  obtain rfl : result = 0 := of_decide_eq_true passed.1
  obtain ⟨play, reached, going⟩ := runCheck_sound passed.2
  exact ⟨game, play, ready, reached, level_winnable ready reached (of_decide_eq_true going)⟩

end ComputerSystems.Mp2
