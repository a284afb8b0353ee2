import ComputerSystems.Construction.Mp2.WormSteps
import ComputerSystems.Proof.Mp2.Connected

namespace ComputerSystems.Mp2

open Maze

/-- The invariant of the worm phase: a worm that moves is on an open lattice point. -/
def Wormed : WormPoint → Prop
  | .picking worm => Sound worm.maze worm.remaining
  | .moving worm => Placed worm
  | .finished worm => Placed worm

/-- The maze keeps its size. -/
def SameSize (maze other : Maze) : Prop := other.xDim = maze.xDim ∧ other.yDim = maze.yDim

namespace Wormed

variable {point : WormPoint}

theorem sound (wormed : Wormed point) : Sound point.worm.maze point.worm.remaining := by
  cases point with
  | picking worm => exact wormed
  | moving worm => exact wormed.sound
  | finished worm => exact wormed.sound

/-- A lattice point of the maze that a random loop checks. -/
theorem room_random {maze : Maze} (wide : 0 < maze.xDim) (high : 0 < maze.yDim)
    (column row : Nat) : maze.Room (column % maze.xDim * 2 + 1) (row % maze.yDim * 2 + 1) := by
  have inside := Nat.mod_lt column wide
  have below := Nat.mod_lt row high
  exact ⟨by omega, by omega, by omega, by omega⟩

/-- Each step keeps the invariant and leads to a lattice point. -/
theorem step (wormed : Wormed point) (random : Nat → Nat) (wide : 2 ≤ point.worm.maze.xDim)
    (high : 0 < point.worm.maze.yDim) :
    let next := point.step random
    Wormed next ∧ next.worm.maze.Room next.worm.x next.worm.y ∧
      SameSize point.worm.maze next.worm.maze := by
  cases point with
  | picking worm =>
      have room : worm.maze.Room _ _ := room_random (Nat.zero_lt_of_lt wide) high
        (random worm.drawn) (random (worm.drawn + 1))
      rw [WormPoint.step]
      dsimp only
      by_cases stop : worm.maze.get (random worm.drawn % worm.maze.xDim * 2 + 1)
          (random (worm.drawn + 1) % worm.maze.yDim * 2 + 1) &&& mazeWall ≠ 0
      · have opened := wormed.put_room room
        rw [if_pos (wormed.wall_of_bit room stop)] at opened
        rw [if_pos stop]
        exact ⟨⟨opened, room, get_put_self ..⟩, room, rfl, rfl⟩
      · rw [if_neg stop]
        exact ⟨wormed, room, rfl, rfl⟩
  | moving worm =>
      rw [WormPoint.step]
      dsimp only
      split_ifs with turns more
      · exact ⟨wormed.sound, wormed.room, rfl, rfl⟩
      · exact ⟨⟨wormed.sound, wormed.room, wormed.clear⟩, wormed.room, rfl, rfl⟩
      · have moved := wormed.move random wide
        exact ⟨moved, moved.room, worm.move_xDim _, worm.move_yDim _⟩
  | finished worm => exact ⟨wormed, wormed.room, rfl, rfl⟩

/-- The invariant holds after every number of steps. -/
theorem steps (wormed : Wormed point) (random : Nat → Nat) (wide : 2 ≤ point.worm.maze.xDim)
    (high : 0 < point.worm.maze.yDim) (count : Nat) :
    let last := (WormPoint.step random)^[count] point
    Wormed last ∧ (count ≠ 0 → last.worm.maze.Room last.worm.x last.worm.y) ∧
      SameSize point.worm.maze last.worm.maze := by
  induction count with
  | zero => exact ⟨wormed, fun some_step => absurd rfl some_step, rfl, rfl⟩
  | succ count ih =>
      obtain ⟨kept, _, columns, rows⟩ := ih
      rw [Function.iterate_succ_apply']
      obtain ⟨next, room, columnsKept, rowsKept⟩ :=
        kept.step random (by omega) (by omega)
      exact ⟨next, fun _ => room, columnsKept.trans columns, rowsKept.trans rows⟩

/-- A new worm phase has only walls. -/
theorem start (maze : Maze) : Wormed (.start maze) := Sound.filled maze

end Wormed

/-- A point that stops the random loop starts a worm there. -/
theorem pick_steps {random : Nat → Nat} {fuel x y after : Nat} {worm : Worm}
    (picked : pick random worm.maze (fun cell => cell &&& mazeWall ≠ 0) fuel worm.drawn =
      some (x, y, after)) :
    ∃ count, (WormPoint.step random)^[count] (.picking worm) =
      .moving
        ⟨worm.maze.put x y mazeNone, worm.remaining - 1, x, y, random after % 4, after + 1⟩ := by
  induction fuel generalizing worm with
  | zero => cases picked
  | succ fuel ih =>
      rw [pick] at picked
      by_cases stops : worm.maze.get (random worm.drawn % worm.maze.xDim * 2 + 1)
          (random (worm.drawn + 1) % worm.maze.yDim * 2 + 1) &&& mazeWall ≠ 0
      · rw [if_pos (decide_eq_true stops)] at picked
        cases picked
        refine ⟨1, ?_⟩
        rw [Function.iterate_one, WormPoint.step]
        exact if_pos stops
      · rw [if_neg (by rwa [decide_eq_true_eq])] at picked
        obtain ⟨count, reached⟩ := @ih { worm with
          x := random worm.drawn % worm.maze.xDim * 2 + 1
          y := random (worm.drawn + 1) % worm.maze.yDim * 2 + 1
          drawn := worm.drawn + 2 } picked
        refine ⟨count + 1, ?_⟩
        rw [Function.iterate_succ_apply, WormPoint.step, if_neg stops]
        exact reached

/-- A worm that turns around is at a point where another one may be dropped. -/
theorem wormLoop_steps {random : Nat → Nat} {fuel : Nat} {worm done : Worm}
    (looped : wormLoop random fuel worm = some done) :
    ∃ count, (WormPoint.step random)^[count] (.moving worm) =
      if 0 < done.remaining then .picking done else .finished done := by
  induction fuel generalizing worm with
  | zero => cases looped
  | succ fuel ih =>
      rw [wormLoop] at looped
      by_cases turns : (worm.dir random + 4 - worm.prefDir) % 4 = 2
      · rw [if_pos turns] at looped
        cases looped
        refine ⟨1, ?_⟩
        rw [Function.iterate_one, WormPoint.step]
        exact if_pos turns
      · rw [if_neg turns] at looped
        obtain ⟨count, reached⟩ := ih looped
        refine ⟨count + 1, ?_⟩
        rw [Function.iterate_succ_apply, WormPoint.step, if_neg turns]
        exact reached

/-- The loops of the worm phase take these steps. -/
theorem wormPhase_steps {random : Nat → Nat} {fuel : Nat} {worm done : Worm}
    (phased : wormPhase random fuel worm = some done) :
    ∃ count, (WormPoint.step random)^[count] (.picking worm) = .finished done := by
  induction fuel generalizing worm with
  | zero => cases phased
  | succ fuel ih =>
      rw [wormPhase] at phased
      cases picked : pick random worm.maze (fun cell => cell &&& mazeWall ≠ 0) fuel worm.drawn with
      | none =>
          rw [picked] at phased
          cases phased
      | some point =>
          obtain ⟨x, y, drawn⟩ := point
          rw [picked] at phased
          dsimp only at phased
          obtain ⟨choice, dropped⟩ := pick_steps picked
          cases looped : wormLoop random fuel ⟨worm.maze.put x y mazeNone, worm.remaining - 1, x, y,
              random drawn % 4, drawn + 1⟩ with
          | none =>
              rw [looped] at phased
              cases phased
          | some last =>
              rw [looped] at phased
              dsimp only at phased
              obtain ⟨moves, turned⟩ := wormLoop_steps looped
              by_cases more : 0 < last.remaining
              · rw [if_pos more] at phased turned
                obtain ⟨others, finished⟩ := ih phased
                refine ⟨others + (moves + choice), ?_⟩
                rw [Function.iterate_add_apply, Function.iterate_add_apply, dropped, turned,
                  finished]
              · rw [if_neg more] at phased turned
                cases phased
                refine ⟨moves + choice, ?_⟩
                rw [Function.iterate_add_apply, dropped, turned]

/-- The chosen direction is one of the four and leads to a lattice point. -/
theorem Placed.target {worm : Worm} (placed : Placed worm) (random : Nat → Nat)
    (wide : 2 ≤ worm.maze.xDim) :
    let next := worm.move (worm.dir random)
    worm.dir random ≤ 3 ∧ worm.maze.Room next.x next.y := by
  have moved : (worm.move (worm.dir random)).maze.Room _ _ := (placed.move random wide).room
  rw [Room, Worm.move_xDim, Worm.move_yDim] at moved
  refine ⟨?_, moved⟩
  rcases worm.dir_cases random wide placed.room with
    ⟨dir, _⟩ | ⟨dir, _⟩ | ⟨dir, _⟩ | ⟨dir, _⟩ <;> omega

/-- The locations of the boundary and those with two even coordinates are walls, up to the right
and the lower boundary. -/
theorem Maze.Dug.pillar {maze : Maze} (dug : maze.Dug) {x y : Nat} (wide : 0 < maze.xDim)
    (inside : x ≤ 2 * maze.xDim)
    (place : x = 0 ∨ y = 0 ∨ x = 2 * maze.xDim ∨ 2 * maze.yDim ≤ y ∨ (x % 2 = 0 ∧ y % 2 = 0)) :
    maze.get x y = mazeWall := by
  rcases inside.lt_or_eq with less | rfl
  · exact dug.solid x y ⟨less, by omega⟩
  · rw [get_right]
    exact dug.solid 0 (y + 1) ⟨by omega, .inl rfl⟩

/-- A cleared space joins two open lattice points. -/
theorem Maze.Dug.joins {maze : Maze} (dug : maze.Dug) {x y : Nat} (wide : 0 < maze.xDim)
    (inside : x ≤ 2 * maze.xDim) (below : y ≤ 2 * maze.yDim) (parity : x % 2 ≠ y % 2)
    (cleared : maze.get x y ≠ mazeWall) :
    ∃ a b c d, ((a + 1 = x ∧ c = x + 1 ∧ b = y ∧ d = y) ∨ (b + 1 = y ∧ d = y + 1 ∧ a = x ∧ c = x)) ∧
      maze.Room a b ∧ maze.Room c d ∧ maze.get a b ≠ mazeWall ∧ maze.get c d ≠ mazeWall := by
  have inner : ¬ (x = 0 ∨ y = 0 ∨ x = 2 * maze.xDim ∨ 2 * maze.yDim ≤ y ∨
      (x % 2 = 0 ∧ y % 2 = 0)) := fun place => cleared (dug.pillar wide inside place)
  have empty : maze.get x y = mazeNone := (dug.door x y (by omega) parity).resolve_left cleared
  obtain even | odd := Nat.mod_two_eq_zero_or_one x
  · obtain ⟨left, rfl⟩ : ∃ left, x = left + 1 := ⟨x - 1, by omega⟩
    have first : maze.Room left y := ⟨by omega, by omega, by omega, by omega⟩
    have second : maze.Room (left + 2) y := ⟨by omega, by omega, by omega, by omega⟩
    exact ⟨left, y, left + 2, y, .inl ⟨rfl, rfl, rfl, rfl⟩, first, second,
      dug.across left y first second empty⟩
  · obtain ⟨up, rfl⟩ : ∃ up, y = up + 1 := ⟨y - 1, by omega⟩
    have first : maze.Room x up := ⟨by omega, by omega, by omega, by omega⟩
    have second : maze.Room x (up + 2) := ⟨by omega, by omega, by omega, by omega⟩
    exact ⟨x, up, x, up + 2, .inr ⟨rfl, rfl, rfl, rfl⟩, first, second,
      dug.down x up first second empty⟩

/-- Whatever the random numbers are, the worms stay inside the lattice at every step. -/
theorem worms_inLattice {maze : Maze} (wide : mazeMinXDim ≤ maze.xDim)
    (high : mazeMinYDim ≤ maze.yDim) (random : Nat → Nat) (count : Nat) :
    let point := (WormPoint.step random)^[count] (.start maze)
    let worm := point.worm
    (count ≠ 0 → (worm.x % 2 = 1 ∧ 1 ≤ worm.x ∧ worm.x ≤ 2 * maze.xDim - 1) ∧
        worm.y % 2 = 1 ∧ 1 ≤ worm.y ∧ worm.y ≤ 2 * maze.yDim - 1) ∧
      (point = .moving worm → 0 < worm.wt.getD 3 0 ∧ worm.dir random ≤ 3 ∧
        maze.Room (worm.move (worm.dir random)).x (worm.move (worm.dir random)).y) ∧
      (∀ x y, x ≤ 2 * maze.xDim →
        (x = 0 ∨ y = 0 ∨ x = 2 * maze.xDim ∨ 2 * maze.yDim ≤ y ∨ (x % 2 = 0 ∧ y % 2 = 0)) →
          worm.maze.get x y = mazeWall) ∧
      (∀ x y, x ≤ 2 * maze.xDim → y ≤ 2 * maze.yDim → x % 2 ≠ y % 2 →
        worm.maze.get x y ≠ mazeWall →
          ∃ a b c d, ((a + 1 = x ∧ c = x + 1 ∧ b = y ∧ d = y) ∨
              (b + 1 = y ∧ d = y + 1 ∧ a = x ∧ c = x)) ∧
            maze.Room a b ∧ maze.Room c d ∧
              worm.maze.get a b ≠ mazeWall ∧ worm.maze.get c d ≠ mazeWall) ∧
      worm.remaining = worm.maze.count isWall := by
  intro point worm
  have columns : 2 ≤ maze.xDim := le_trans (by decide) wide
  have rows : 0 < maze.yDim := lt_of_lt_of_le (by decide) high
  obtain ⟨wormed, room, sameColumns, sameRows⟩ :=
    (Wormed.start maze).steps random columns rows count
  have same (x y : Nat) : worm.maze.Room x y ↔ maze.Room x y := by
    rw [Room, Room, show worm.maze.xDim = maze.xDim from sameColumns,
      show worm.maze.yDim = maze.yDim from sameRows]
  have dug : worm.maze.Dug := wormed.sound.dug
  have width : worm.maze.xDim = maze.xDim := sameColumns
  have height : worm.maze.yDim = maze.yDim := sameRows
  refine ⟨fun some_step => ?_, fun moving => ?_, fun x y inside place => ?_,
    fun x y inside below parity cleared => ?_, wormed.sound.remaining⟩
  · have here : maze.Room worm.x worm.y := (same _ _).1 (room some_step)
    obtain ⟨oddX, oddY, inside, below⟩ := here
    exact ⟨⟨oddX, by omega, by omega⟩, oddY, by omega, by omega⟩
  · have placed : Placed worm := by
      have kept : Wormed point := wormed
      rwa [moving] at kept
    have target := placed.target random (by omega)
    exact ⟨worm.wt_pos (by omega) placed.room, target.1, (same _ _).1 target.2⟩
  · exact dug.pillar (by omega) (by omega) (by rwa [width, height])
  · obtain ⟨a, b, c, d, ends, first, second, cells⟩ :=
      dug.joins (by omega) (by omega) (by omega) parity cleared
    exact ⟨a, b, c, d, ends, (same _ _).1 first, (same _ _).1 second, cells⟩

theorem worms_inLattice_snake :
    let worm := ((WormPoint.step snake)^[20] (.start smallest)).worm
    worm.x % 2 = 1 ∧ worm.remaining = worm.maze.count isWall := by
  have inLattice := @worms_inLattice smallest (by decide) (by decide) snake 20
  exact ⟨(inLattice.1 (by decide)).1.1, inLattice.2.2.2.2⟩

end ComputerSystems.Mp2
