import ComputerSystems.Proof.Mp2.Following
import ComputerSystems.Proof.Mp2.PlayerShown

namespace ComputerSystems.Mp2

open Library

/-- The picture of the player appears on the display. -/
def Game.Appears (blocks : Blocks) (game : Game) (dir : Dir) : Prop :=
  ∀ pixel ∈ game.display.window, pixel ∈ game.shape blocks dir →
    game.display.color pixel = blocks (blockPlayerUp + dir.code)
      (Display.squareIndex game.playX game.playY pixel)

/-- Nothing is left to eat or to uncover around a location. -/
structure Maze.Settled (maze : Maze) (x y : Nat) : Prop where
  bare : hasFruit (maze.get x y) = false
  reached : ∀ offset ∈ around, ∀ u v : Nat, (x : Int) + offset.1 = u → (y : Int) + offset.2 = v →
    u ≤ 2 * maze.xDim → v ≤ 2 * maze.yDim → maze.get u v &&& mazeReach ≠ 0

section Settling

variable (blocks : Blocks)

/-- Nothing is eaten where there is no fruit. -/
theorem checkForFruit_bare {x y : Nat} {maze : Maze} (bare : hasFruit (maze.get x y) = false)
    (display : Display) : (checkForFruit blocks x y (maze, display)).2 = (maze, display) := by
  have none_there := (fnum_eq_zero _).2 (not_not.1 (of_decide_eq_false bare))
  rw [checkForFruit]
  dsimp only
  rw [if_neg (not_not.2 none_there), ite_self]

/-- Locations that are uncovered are not drawn again. -/
theorem unveilSpaces_reached (x y : Int) (offsets : List (Int × Int)) (scene : Maze × Display)
    (reached : ∀ offset ∈ offsets, ∀ u v : Nat, x + offset.1 = u → y + offset.2 = v →
      u ≤ 2 * scene.1.xDim → v ≤ 2 * scene.1.yDim → scene.1.get u v &&& mazeReach ≠ 0) :
    offsets.foldl (fun scene offset =>
      unveilSpace blocks (x + offset.1) (y + offset.2) scene) scene = scene := by
  induction offsets with
  | nil => rfl
  | cons first rest ih =>
      have kept : unveilSpace blocks (x + first.1) (y + first.2) scene = scene := by
        rw [unveilSpace]
        dsimp only
        split_ifs with outside mark
        · rfl
        · rfl
        · refine absurd (reached first List.mem_cons_self (x + first.1).toNat
            (y + first.2).toNat ?_ ?_ ?_ ?_) mark <;> omega
      rw [List.foldl_cons, kept]
      exact ih fun offset member => reached offset (List.mem_cons_of_mem _ member)

/-- An exposure where nothing is left changes nothing. -/
theorem Game.unveilAt_settled {game : Game} {playX playY : Nat}
    (settled : game.maze.Settled (playX / blockXDim) (playY / blockYDim)) :
    game.unveilAt blocks playX playY = game := by
  have again := unveilSpaces_reached blocks (playX / blockXDim : Nat) (playY / blockYDim : Nat)
    around (game.maze, game.display) settled.reached
  rw [unveilAt, unveilAroundPlayer]
  dsimp only
  rw [checkForFruit_bare blocks settled.bare, again]

theorem Game.unveilAt_settles (game : Game) {playX playY : Nat}
    (inside : playX / blockXDim < 2 * game.maze.xDim)
    (below : playY / blockYDim < 2 * game.maze.yDim) :
    (game.unveilAt blocks playX playY).maze.Settled (playX / blockXDim) (playY / blockYDim) := by
  obtain ⟨unveiled, near⟩ := unveilSpaces_uncovers blocks (playX / blockXDim : Nat)
    (playY / blockYDim : Nat) around
    (checkForFruit blocks (playX / blockXDim) (playY / blockYDim) (game.maze, game.display)).2
  refine ⟨game.unveilAt_bare blocks inside below, ?_⟩
  intro offset member u v column row within bound
  exact near offset member u v column row (unveiled.walls.xDim ▸ within)
    (unveiled.walls.yDim ▸ bound)

end Settling

/-- The square of the player keeps off the boundary of the maze. -/
structure Game.Bounded (game : Game) : Prop where
  left : blockXDim ≤ game.playX
  right : game.playX + blockXDim ≤ 2 * game.maze.xDim * blockXDim
  top : blockYDim ≤ game.playY
  bottom : game.playY + blockYDim ≤ 2 * game.maze.yDim * blockYDim

theorem Track.bounded {game : Game} {dir : Dir} {rest : Int}
    (track : Track game.maze dir rest game.playX game.playY) : game.Bounded := by
  generalize playX_eq : game.playX = playX at track
  generalize playY_eq : game.playY = playY at track
  cases track with
  | up short stop start =>
      obtain ⟨left, right, top, _, _⟩ := stop
      have bottom := start.bottom
      dsimp only [blockXDim, blockYDim] at *
      constructor <;> dsimp only [blockXDim, blockYDim] <;> omega
  | right whole start stop =>
      obtain ⟨left, _, top, bottom, _⟩ := start
      have right := stop.right
      dsimp only [blockXDim, blockYDim] at *
      constructor <;> dsimp only [blockXDim, blockYDim] <;> omega
  | down whole start stop =>
      obtain ⟨left, right, top, _, _⟩ := start
      have bottom := stop.bottom
      dsimp only [blockXDim, blockYDim] at *
      constructor <;> dsimp only [blockXDim, blockYDim] <;> omega
  | left short stop start =>
      obtain ⟨left, _, top, bottom, _⟩ := stop
      have right := start.right
      dsimp only [blockXDim, blockYDim] at *
      constructor <;> dsimp only [blockXDim, blockYDim] <;> omega

/-- The player is on the lattice in both directions. -/
theorem Game.Bounded.onLattice {game : Game} (bounded : game.Bounded)
    (xDim : game.maze.xDim = game.mazeXDim) (yDim : game.maze.yDim = game.mazeYDim) :
    onLattice game.playX game.mazeXDim = true ∧ onLattice game.playY game.mazeYDim = true := by
  obtain ⟨left, right, top, bottom⟩ := bounded
  rw [xDim] at right
  rw [yDim] at bottom
  constructor
  · refine (Bool.and_eq_true _ _).mpr ⟨decide_eq_true left, decide_eq_true ?_⟩
    dsimp only [blockXDim, blockYDim] at *
    omega
  · refine (Bool.and_eq_true _ _).mpr ⟨decide_eq_true top, decide_eq_true ?_⟩
    dsimp only [blockXDim, blockYDim] at *
    omega

/-- A move is one of the walk with a block drawn behind it. -/
theorem Game.go_following {game : Game} (following : Following game) (blocks : Blocks) (dir : Dir)
    (inside : onLattice (game.go blocks dir).playX (game.go blocks dir).mazeXDim = true ∧
      onLattice (game.go blocks dir).playY (game.go blocks dir).mazeYDim = true) :
    Following (game.go blocks dir) := by
  cases dir with
  | up =>
      obtain ⟨column, row⟩ := following.applied blocks .moveUp
      exact ⟨column, row, inside.1, inside.2⟩
  | right =>
      obtain ⟨column, row⟩ := following.applied blocks .moveRight
      exact ⟨column, row, inside.1, inside.2⟩
  | down =>
      obtain ⟨column, row⟩ := following.applied blocks .moveDown
      exact ⟨column, row, inside.1, inside.2⟩
  | left =>
      obtain ⟨column, row⟩ := following.applied blocks .moveLeft
      exact ⟨column, row, inside.1, inside.2⟩
  | stop => exact following

namespace Game

variable {game : Game}

/-- An exposure less than a block ahead uncovers all that is under the player. -/
theorem unveilAt_exposed (blocks : Blocks) (bounded : game.Bounded) {playX playY : Nat}
    (column : game.playX ≤ playX ∧ playX < game.playX + blockXDim)
    (row : game.playY ≤ playY ∧ playY < game.playY + blockYDim) :
    (game.unveilAt blocks playX playY).Exposed := by
  intro x y under
  have same : game.Overlaps x y := under
  obtain ⟨⟨left, right⟩, top, bottom⟩ := same
  obtain ⟨_, wide, _, high⟩ := bounded
  refine (game.unveilAt_uncovers blocks playX playY).2 x y ?_ ?_ ?_ ?_ ?_ ?_
  all_goals
    dsimp only [blockXDim, blockYDim] at *
    omega

/-- The player looks less than half a block ahead. -/
theorem unveilAhead_eq (blocks : Blocks) (game : Game) (dir : Dir) : ∃ playX playY,
    game.unveilAhead blocks dir = game.unveilAt blocks playX playY ∧
      (game.playX ≤ playX ∧ playX ≤ game.playX + blockXDim / 2) ∧
        game.playY ≤ playY ∧ playY ≤ game.playY + blockYDim / 2 := by
  have here (pixels : Nat) : pixels ≤ pixels ∧ pixels ≤ pixels + blockXDim / 2 :=
    ⟨le_rfl, Nat.le_add_right _ _⟩
  have ahead (pixels : Nat) :
      pixels ≤ pixels + blockXDim / 2 ∧ pixels + blockXDim / 2 ≤ pixels + blockXDim / 2 :=
    ⟨Nat.le_add_right _ _, le_rfl⟩
  cases dir with
  | up => exact ⟨_, _, rfl, here _, ahead _⟩
  | left => exact ⟨_, _, rfl, ahead _, here _⟩
  | right => exact ⟨_, _, rfl, here _, here _⟩
  | down => exact ⟨_, _, rfl, here _, here _⟩
  | stop => exact ⟨_, _, rfl, here _, here _⟩

end Game

/-- The display shows the game between two ticks but for the spoiled pixels at the player, who is on
uncovered locations. -/
structure Showing (blocks : Blocks) (spoiled : Set (Nat × Nat)) (play : Play) : Prop where
  off : OffWalls play
  within : spoiled ⊆ play.game.smeared
  portrayed : Portrayed blocks spoiled play.game
  following : Following play.game
  exposed : play.game.Exposed
  settled : play.moveCnt = 0 →
    play.game.maze.Settled (play.game.playX / blockXDim) (play.game.playY / blockYDim)

section Ticking

variable {blocks : Blocks} {spoiled : Set (Nat × Nat)} {play next : Play} {request : Request}

/-- The player is as it was, perhaps in another direction. -/
structure Play.Rests (play next : Play) : Prop where
  game : next.game = play.game
  lastDir : next.lastDir = play.lastDir

/-- The player has moved by one pixel. -/
structure Play.Moved (blocks : Blocks) (spoiled : Set (Nat × Nat)) (next : Play) : Prop where
  going : next.gotoNextLevel = false
  moves : next.dir ≠ .stop
  appears : next.game.Appears blocks next.lastDir
  showing : ∃ after ⊆ spoiled ∪ next.game.shape blocks next.lastDir, Showing blocks after next

theorem Showing.rest (showing : Showing blocks spoiled play) (rests : play.Rests next)
    (off : OffWalls next) (arrived : next.moveCnt = 0 → play.moveCnt = 0) :
    Showing blocks spoiled next := by
  obtain ⟨game, _⟩ := rests
  constructor
  · exact off
  · rw [game]
    exact showing.within
  · rw [game]
    exact showing.portrayed
  · rw [game]
    exact showing.following
  · rw [game]
    exact showing.exposed
  · rw [game]
    exact showing.settled ∘ arrived

theorem Play.turnBack_rests (nextDir : Dir) (play : Play) : play.Rests (play.turnBack nextDir) := by
  rw [turnBack]
  split_ifs <;> exact ⟨rfl, rfl⟩

theorem Play.turnBack_level (nextDir : Dir) (play : Play) :
    (play.turnBack nextDir).gotoNextLevel = play.gotoNextLevel := by
  rw [turnBack]
  split_ifs <;> rfl

/-- A turn on the way is not the end of it. -/
theorem OffWalls.turnBack_arrived (off : OffWalls play) {nextDir : Dir}
    (arrived : (play.turnBack nextDir).moveCnt = 0) : play.moveCnt = 0 := by
  rcases off.footing with ⟨none_left, _⟩ | ⟨some_left, below, _⟩
  · exact none_left
  · rw [Play.turnBack] at arrived
    by_cases turns : nextDir ≠ play.dir ∧ play.dir.isOpposite nextDir
    · rw [if_pos turns] at arrived
      dsimp only [blockXDim, blockYDim] at *
      rw [if_pos some_left, ite_self] at arrived
      omega
    · rw [if_neg turns] at arrived
      exact arrived

theorem Showing.turnBack (showing : Showing blocks spoiled play) (nextDir : Dir) :
    Showing blocks spoiled (play.turnBack nextDir) :=
  showing.rest (play.turnBack_rests nextDir) (showing.off.turnBack nextDir)
    showing.off.turnBack_arrived

/-- At a new square there is nothing to uncover that the last move did not. -/
theorem Showing.newSquare_rests (showing : Showing blocks spoiled play)
    (arrived : play.moveCnt = 0) (request : Request) :
    play.Rests (play.newSquare blocks request) := by
  have same : (play.game.unveilAroundPlayer blocks).2 = play.game :=
    Game.unveilAt_settled blocks (showing.settled arrived)
  rw [Play.newSquare]
  dsimp only
  split_ifs <;> exact ⟨same, rfl⟩

/-- A player that is ready to go moves or rests. -/
theorem Showing.move (showing : Showing blocks spoiled play) {ready : Play}
    (rests : play.Rests ready) (footing : OffWalls.Ready ready)
    (arrived : ready.dir = .stop → play.moveCnt = 0) (going : ready.gotoNextLevel = false)
    (masked : Masked blocks) :
    let next := ready.move blocks
    (play.Rests next ∧ next.dir = .stop ∧ Showing blocks spoiled next) ∨
      next.Moved blocks spoiled := by
  intro next
  have off : OffWalls (ready.move blocks) := OffWalls.move footing
  dsimp only [next]
  obtain ⟨walled, ⟨stopped, none_left, square⟩ | ⟨some_left, below, track⟩⟩ := footing
  · have same : ready.move blocks = ready := by rw [Play.move, if_pos stopped]
    rw [same] at off ⊢
    exact .inl ⟨rests, stopped, showing.rest rests off fun _ => arrived stopped⟩
  · have moves : ready.dir ≠ .stop := fun stopped => by
      rw [stopped] at track
      cases track
    rw [Play.move, if_neg moves] at off ⊢
    dsimp only at off ⊢
    have within := showing.within
    have portrayed := showing.portrayed
    have following := showing.following
    rw [← rests.game] at within portrayed following
    obtain ⟨same, moved⟩ := track.gone blocks (ne_of_gt some_left)
    obtain ⟨left, fewer, clean, redrawn⟩ := portrayed.go within track (ne_of_gt some_left)
    have unveiled := redrawn.unveilAhead ready.dir
    have follows := ready.game.go_following following blocks ready.dir
    generalize ready.game.go blocks ready.dir = gone at *
    rw [← same] at moved
    obtain ⟨playX, playY, ahead, column, row⟩ := gone.unveilAhead_eq blocks ready.dir
    rw [ahead] at off unveiled ⊢
    have faces : (gone.unveilAt blocks playX playY).Faces ready.dir :=
      ⟨moved.faces.column, moved.faces.row⟩
    have inside : onLattice gone.playX gone.mazeXDim = true ∧
        onLattice gone.playY gone.mazeYDim = true := by
      obtain ⟨_, pictured, _⟩ := redrawn
      exact moved.bounded.onLattice pictured.viewed.xDim pictured.viewed.yDim
    obtain ⟨column', row', insideX, insideY⟩ := follows inside
    refine .inr ⟨going, moves, ?_, left ∪ (gone.unveilAt blocks playX playY).shape blocks ready.dir,
      Set.union_subset_union_left _ fewer, off, Set.union_subset clean (Game.shape_subset faces),
      unveiled.drawPlayer masked moves, ⟨column', row', insideX, insideY⟩, ?_, fun ended => ?_⟩
    · have drawn : (gone.unveilAt blocks playX playY).display.Recolors _ _ _ :=
        drawPlayer_recolors masked moves
      intro pixel shown member
      rw [Display.window, drawn.showX, drawn.showY] at shown
      exact drawn.shows pixel shown member
    · refine gone.unveilAt_exposed blocks moved.bounded ⟨column.1, ?_⟩ ⟨row.1, ?_⟩
      · exact lt_of_le_of_lt column.2 (Nat.add_lt_add_left (by decide) _)
      · exact lt_of_le_of_lt row.2 (Nat.add_lt_add_left (by decide) _)
    · -- The way has ended, so that half a block ahead is still on the new square.
      replace ended : ready.moveCnt - 1 = 0 := ended
      have bounded := moved.bounded
      rw [ended] at moved
      obtain ⟨⟨u, columns⟩, v, rows⟩ := moved.arrived.aligned
      obtain ⟨_, wide, _, high⟩ := bounded
      have here : playX / blockXDim = gone.playX / blockXDim ∧
          playY / blockYDim = gone.playY / blockYDim := by
        dsimp only [blockXDim, blockYDim] at *
        omega
      have inside : playX / blockXDim < 2 * gone.maze.xDim := by
        dsimp only [blockXDim] at *
        omega
      have below : playY / blockYDim < 2 * gone.maze.yDim := by
        dsimp only [blockYDim] at *
        omega
      have settled := gone.unveilAt_settles blocks inside below
      rw [here.1, here.2] at settled
      exact settled

/-- A tick lets the player rest or move by one pixel. -/
theorem Showing.tick (showing : Showing blocks spoiled play) (masked : Masked blocks)
    (ticked : play.tick blocks request = .ok next) :
    (play.Rests next ∧ (next.dir = .stop ∨ next.gotoNextLevel = true) ∧
      Showing blocks spoiled next) ∨ next.Moved blocks spoiled := by
  rw [Play.tick] at ticked
  by_cases done : play.gotoNextLevel = true
  · rw [if_pos done] at ticked
    cases ticked
  rw [if_neg done] at ticked
  have turned := showing.turnBack request.nextDir
  have turns := play.turnBack_rests request.nextDir
  have going : (play.turnBack request.nextDir).gotoNextLevel = false :=
    (play.turnBack_level request.nextDir).trans (eq_false_of_ne_true done)
  have lands : (play.turnBack request.nextDir).moveCnt = 0 → play.moveCnt = 0 :=
    showing.off.turnBack_arrived
  generalize play.turnBack request.nextDir = current at *
  dsimp only at ticked
  by_cases arrived : current.moveCnt = 0
  · rw [if_pos arrived] at ticked
    obtain ⟨wins, goes⟩ := turned.off.newSquare blocks request arrived going
    have rests := turned.newSquare_rests arrived request
    have both : play.Rests (current.newSquare blocks request) :=
      ⟨rests.game.trans turns.game, rests.lastDir.trans turns.lastDir⟩
    cases won : (current.newSquare blocks request).gotoNextLevel with
    | true =>
        rw [if_pos won] at ticked
        cases ticked
        exact .inl ⟨both, .inr won, showing.rest both (wins won) fun _ => lands arrived⟩
    | false =>
        rw [if_neg (by rw [won]; decide)] at ticked
        cases ticked
        rcases showing.move both (goes won) (fun _ => lands arrived) won masked with
          ⟨still, stopped, shown⟩ | moved
        · exact .inl ⟨still, .inl stopped, shown⟩
        · exact .inr moved
  · rw [if_neg arrived, if_neg (by rw [going]; decide)] at ticked
    cases ticked
    obtain ⟨walled, ⟨none_left, _⟩ | ⟨some_left, below, track⟩⟩ := turned.off
    · exact absurd none_left arrived
    · have footing : OffWalls.Ready current := ⟨walled, .inr ⟨some_left, below.le, track⟩⟩
      have moves : current.dir = .stop → play.moveCnt = 0 := fun stopped => by
        rw [stopped] at track
        cases track
      rcases showing.move turns footing moves going masked with ⟨still, stopped, shown⟩ | moved
      · exact .inl ⟨still, .inl stopped, shown⟩
      · exact .inr moved

end Ticking

end ComputerSystems.Mp2
