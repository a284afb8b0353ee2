import ComputerSystems.Proof.Mp2.MazeCells

namespace ComputerSystems.Mp2

open Maze

/-- A point that the random loop picks is a lattice point that passes the check. -/
theorem pick_spec {random : Nat → Nat} {maze : Maze} {stop : UInt8 → Bool}
    {fuel drawn x y after : Nat} (wide : 0 < maze.xDim) (high : 0 < maze.yDim)
    (picked : pick random maze stop fuel drawn = some (x, y, after)) :
    maze.Room x y ∧ stop (maze.get x y) = true := by
  induction fuel generalizing drawn with
  | zero => cases picked
  | succ fuel ih =>
      rw [pick] at picked
      by_cases stops : stop (maze.get (random drawn % maze.xDim * 2 + 1)
          (random (drawn + 1) % maze.yDim * 2 + 1)) = true
      · rw [if_pos stops] at picked
        cases picked
        have column := Nat.mod_lt (random drawn) wide
        have row := Nat.mod_lt (random (drawn + 1)) high
        exact ⟨⟨by omega, by omega, by omega, by omega⟩, stops⟩
      · rw [if_neg stops] at picked
        exact ih picked

theorem turnWt_pos (turn : Nat) (wall : Bool) : 0 < turnWt turn wall := by
  match turn with
  | 0 => cases wall <;> decide
  | 1 => cases wall <;> decide
  | 2 => cases wall <;> decide
  | _ + 3 => cases wall <;> simp [turnWt]

def isWall (cell : UInt8) : Bool := cell = mazeWall

/-- The worm phase has marked nothing and counts the lattice points that are walls. -/
structure Sound (maze : Maze) (remaining : Int) : Prop where
  dug : maze.Dug
  fresh : ∀ x y, maze.Room x y → maze.get x y ≠ mazeReach
  remaining : remaining = maze.count isWall

/-- The worm is on an open lattice point. -/
structure Placed (worm : Worm) : Prop where
  sound : Sound worm.maze worm.remaining
  room : worm.maze.Room worm.x worm.y
  clear : worm.maze.get worm.x worm.y = mazeNone

namespace Sound

variable {maze : Maze} {remaining : Int}

/-- The opening of a lattice point lowers the count exactly when it was a wall. -/
theorem put_room (sound : Sound maze remaining) {x y : Nat} (room : maze.Room x y) :
    Sound (maze.put x y mazeNone)
      (if maze.get x y = mazeWall then remaining - 1 else remaining) where
  dug := sound.dug.put_room room (.inl rfl)
  fresh u v other := by
    by_cases same : u = x ∧ v = y
    · rw [same.1, same.2, get_put_self]
      decide
    · rw [get_put_of_ne room.2.2.1 other.2.2.1 same]
      exact sound.fresh u v other
  remaining := by
    by_cases wall : maze.get x y = mazeWall
    · have count : (maze.put x y mazeNone).count isWall + 1 = maze.count isWall :=
        count_put room (decide_eq_true wall) rfl
      rw [if_pos wall, sound.remaining]
      omega
    · rw [if_neg wall, sound.remaining]
      have count : (maze.put x y mazeNone).count isWall = maze.count isWall := by
        refine count_congr rfl rfl fun u v other => ?_
        by_cases same : u = x ∧ v = y
        · rw [same.1, same.2, get_put_self]
          exact (decide_eq_false wall).symm
        · rw [get_put_of_ne room.2.2.1 other.2.2.1 same]
      rw [count]

/-- A lattice point with the wall bit is a wall. -/
theorem wall_of_bit (sound : Sound maze remaining) {x y : Nat} (room : maze.Room x y)
    (bit : maze.get x y &&& mazeWall ≠ 0) : maze.get x y = mazeWall := by
  rcases sound.dug.room x y room with cell | cell | cell
  · exact cell
  · rw [cell] at bit
    exact absurd (by decide) bit
  · rw [cell] at bit
    exact absurd (by decide) bit

/-- An open space between two open lattice points changes neither count nor marks. -/
theorem put_door (sound : Sound maze remaining) {x y : Nat} (inside : x < 2 * maze.xDim)
    (parity : x % 2 ≠ y % 2) (dug : (maze.put x y mazeNone).Dug) :
    Sound (maze.put x y mazeNone) remaining where
  dug := dug
  fresh u v room := by
    rw [get_put_of_ne inside room.2.2.1 fun same => parity (by
      rw [← same.1, ← same.2, room.1, room.2.1])]
    exact sound.fresh u v room
  remaining := by rw [count_put_door inside parity, sound.remaining]

end Sound

namespace Worm

/-- The first of four bounds above a number that is below the last one. -/
theorem findIdx_four {number up right down left : Nat} (below : number < left) :
    [up, right, down, left].findIdx (fun weight => number < weight) =
      if number < up then 0 else if number < right then 1 else if number < down then 2 else 3 := by
  simp only [List.findIdx_cons, List.findIdx_nil, below, decide_true, cond_true]
  by_cases first : number < up <;> by_cases second : number < right <;>
    by_cases third : number < down <;> simp [first, second, third]

/-- A way to the right or to the left gives the sum of the weights. -/
theorem total_pos {first second third fourth : Nat} {up right down left : Prop}
    [Decidable up] [Decidable right] [Decidable down] [Decidable left]
    (positive : 0 < second ∧ 0 < fourth) (some_way : right ∨ left) :
    0 < (if up then first else 0) + (if right then second else 0) + (if down then third else 0) +
      if left then fourth else 0 := by
  rcases some_way with way | way
  · rw [if_pos way]
    omega
  · rw [if_pos way]
    omega

/-- A direction is chosen only when its weight counts, because a blocked one adds no weight. -/
theorem findIdx_open {number first second third fourth : Nat} {up right down left : Prop}
    [Decidable up] [Decidable right] [Decidable down] [Decidable left]
    (positive : 0 < first ∧ 0 < second ∧ 0 < fourth) (some_way : right ∨ left) :
    let one := if up then first else 0
    let two := one + if right then second else 0
    let three := two + if down then third else 0
    let four := three + if left then fourth else 0
    let chosen := [one, two, three, four].findIdx fun weight => number % four < weight
    (chosen = 0 ∧ up) ∨ (chosen = 1 ∧ right) ∨ (chosen = 2 ∧ down) ∨ (chosen = 3 ∧ left) := by
  intro one two three four chosen
  have total : 0 < four := total_pos positive.2 some_way
  have below := Nat.mod_lt number total
  have choice : chosen = _ := findIdx_four below
  by_cases isUp : number % four < one
  · rw [if_pos isUp] at choice
    refine .inl ⟨choice, by_contra fun blocked => ?_⟩
    have nothing : one = 0 := if_neg blocked
    omega
  · rw [if_neg isUp] at choice
    by_cases isRight : number % four < two
    · rw [if_pos isRight] at choice
      refine .inr (.inl ⟨choice, by_contra fun blocked => ?_⟩)
      have nothing : two = one + 0 := congrArg (one + ·) (if_neg blocked)
      omega
    · rw [if_neg isRight] at choice
      by_cases isDown : number % four < three
      · rw [if_pos isDown] at choice
        refine .inr (.inr (.inl ⟨choice, by_contra fun blocked => ?_⟩))
        have nothing : three = two + 0 := congrArg (two + ·) (if_neg blocked)
        omega
      · rw [if_neg isDown] at choice
        refine .inr (.inr (.inr ⟨choice, by_contra fun blocked => ?_⟩))
        have nothing : four = three + 0 := congrArg (three + ·) (if_neg blocked)
        omega

/-- The chosen direction leads to a lattice point of the maze. -/
theorem dir_cases (worm : Worm) (random : Nat → Nat) (wide : 2 ≤ worm.maze.xDim)
    (room : worm.maze.Room worm.x worm.y) :
    (worm.dir random = 0 ∧ 1 < worm.y) ∨
      (worm.dir random = 1 ∧ worm.x < worm.maze.xDim * 2 - 1) ∨
      (worm.dir random = 2 ∧ worm.y < worm.maze.yDim * 2 - 1) ∨
      (worm.dir random = 3 ∧ 1 < worm.x) := by
  obtain ⟨_, _, inside, _⟩ := room
  exact findIdx_open ⟨turnWt_pos _ _, turnWt_pos _ _, turnWt_pos _ _⟩ (by omega)

/-- No lattice point is without a way. -/
theorem wt_pos (worm : Worm) (wide : 2 ≤ worm.maze.xDim) (room : worm.maze.Room worm.x worm.y) :
    0 < worm.wt.getD 3 0 := by
  obtain ⟨_, _, inside, _⟩ := room
  exact total_pos ⟨turnWt_pos _ _, turnWt_pos _ _⟩ (by omega)

end Worm

/-- A move to a lattice point keeps the worm on open ground when the space on its way may be
opened. -/
theorem Placed.arrive {worm : Worm} (placed : Placed worm) {doorX doorY x y : Nat} (dir : Nat)
    (room : worm.maze.Room x y) (inside : doorX < 2 * worm.maze.xDim)
    (parity : doorX % 2 ≠ doorY % 2)
    (dug : ((worm.maze.put x y mazeNone).put doorX doorY mazeNone).Dug) :
    Placed (worm.arrive (worm.maze.put doorX doorY mazeNone) x y dir) := by
  have apart : ¬ (x = doorX ∧ y = doorY) := fun same => parity (by
    rw [← same.1, ← same.2, room.1, room.2.1])
  have arrived := (placed.sound.put_room room).put_door inside parity dug
  rw [← put_comm inside room.2.2.1 apart] at arrived
  have seen : (worm.maze.put doorX doorY mazeNone).get x y = worm.maze.get x y :=
    get_put_of_ne inside room.2.2.1 apart
  refine ⟨?_, room, get_put_self ..⟩
  rw [Worm.arrive]
  simp only [seen]
  exact arrived

theorem Placed.move {worm : Worm} (placed : Placed worm) (random : Nat → Nat)
    (wide : 2 ≤ worm.maze.xDim) : Placed (worm.move (worm.dir random)) := by
  obtain ⟨oddX, oddY, inside, below⟩ := placed.room
  have here : worm.maze.get worm.x worm.y ≠ mazeWall := by
    rw [placed.clear]
    decide
  rcases worm.dir_cases random wide placed.room with
    ⟨dir, way⟩ | ⟨dir, way⟩ | ⟨dir, way⟩ | ⟨dir, way⟩
  · obtain ⟨y, shape⟩ : ∃ y, worm.y = y + 2 := ⟨worm.y - 2, by omega⟩
    have room : worm.maze.Room worm.x y := ⟨oddX, by omega, inside, by omega⟩
    have start : worm.maze.Room worm.x (y + 2) := shape ▸ placed.room
    rw [dir, Worm.move, shape]
    refine placed.arrive 0 room inside (by omega) ?_
    refine (placed.sound.put_room room).dug.put_down room start ?_ ?_
    · rw [get_put_self]
      decide
    · rw [get_put_of_ne inside inside (by omega), ← shape]
      exact here
  · have room : worm.maze.Room (worm.x + 2) worm.y := ⟨by omega, oddY, by omega, below⟩
    rw [dir]
    refine placed.arrive 1 room (by omega) (by omega) ?_
    refine (placed.sound.put_room room).dug.put_across placed.room room ?_ ?_
    · rwa [get_put_of_ne room.2.2.1 inside (by omega)]
    · rw [get_put_self]
      decide
  · have room : worm.maze.Room worm.x (worm.y + 2) := ⟨oddX, by omega, inside, by omega⟩
    rw [dir]
    refine placed.arrive 2 room inside (by omega) ?_
    refine (placed.sound.put_room room).dug.put_down placed.room room ?_ ?_
    · rwa [get_put_of_ne inside inside (by omega)]
    · rw [get_put_self]
      decide
  · obtain ⟨x, shape⟩ : ∃ x, worm.x = x + 2 := ⟨worm.x - 2, by omega⟩
    have room : worm.maze.Room x worm.y := ⟨by omega, oddY, by omega, below⟩
    have start : worm.maze.Room (x + 2) worm.y := shape ▸ placed.room
    rw [dir, Worm.move, shape]
    refine placed.arrive 3 room (by omega) (by omega) ?_
    refine (placed.sound.put_room room).dug.put_across room start ?_ ?_
    · rw [get_put_self]
      decide
    · rw [get_put_of_ne room.2.2.1 (by omega) (by omega), ← shape]
      exact here

@[simp] theorem Worm.move_xDim (worm : Worm) (dir : Nat) :
    (worm.move dir).maze.xDim = worm.maze.xDim := by
  match dir with
  | 0 => rfl
  | 1 => rfl
  | 2 => rfl
  | 3 => rfl
  | _ + 4 => rfl

@[simp] theorem Worm.move_yDim (worm : Worm) (dir : Nat) :
    (worm.move dir).maze.yDim = worm.maze.yDim := by
  match dir with
  | 0 => rfl
  | 1 => rfl
  | 2 => rfl
  | 3 => rfl
  | _ + 4 => rfl

/-- One worm keeps the invariant until it stops. -/
theorem wormLoop_placed {random : Nat → Nat} {fuel : Nat} {worm done : Worm}
    (wide : 2 ≤ worm.maze.xDim) (placed : Placed worm)
    (looped : wormLoop random fuel worm = some done) :
    Placed done ∧ done.maze.xDim = worm.maze.xDim ∧ done.maze.yDim = worm.maze.yDim := by
  induction fuel generalizing worm with
  | zero => cases looped
  | succ fuel ih =>
      rw [wormLoop] at looped
      by_cases turns : (worm.dir random + 4 - worm.prefDir) % 4 = 2
      · rw [if_pos turns] at looped
        cases looped
        exact ⟨⟨placed.sound, placed.room, placed.clear⟩, rfl, rfl⟩
      · rw [if_neg turns] at looped
        have kept := ih (by rwa [Worm.move_xDim]) (placed.move random wide) looped
        rwa [Worm.move_xDim, Worm.move_yDim] at kept

/-- All lattice points are open after the worm phase. -/
theorem wormPhase_clear {random : Nat → Nat} {fuel : Nat} {worm done : Worm}
    (wide : 2 ≤ worm.maze.xDim) (high : 0 < worm.maze.yDim)
    (sound : Sound worm.maze worm.remaining) (phased : wormPhase random fuel worm = some done) :
    Placed done ∧ done.remaining ≤ 0 ∧
      done.maze.xDim = worm.maze.xDim ∧ done.maze.yDim = worm.maze.yDim := by
  induction fuel generalizing worm with
  | zero => cases phased
  | succ fuel ih =>
      rw [wormPhase] at phased
      cases picked : pick random worm.maze (fun cell => cell &&& mazeWall ≠ 0) fuel worm.drawn with
      | none =>
          rw [picked] at phased
          cases phased
      | some point =>
          obtain ⟨x, y, drawn⟩ := point
          rw [picked] at phased
          dsimp only at phased
          obtain ⟨room, stop⟩ := pick_spec (by omega) high picked
          have wall := sound.wall_of_bit room (of_decide_eq_true stop)
          have opened := sound.put_room room
          rw [if_pos wall] at opened
          generalize dropped_eq : (Worm.mk (worm.maze.put x y mazeNone) (worm.remaining - 1) x y
            (random drawn % 4) (drawn + 1)) = dropped at phased
          have placed : Placed dropped := by
            subst dropped_eq
            exact ⟨opened, room, get_put_self ..⟩
          have columns : dropped.maze.xDim = worm.maze.xDim := by rw [← dropped_eq]; rfl
          have rows : dropped.maze.yDim = worm.maze.yDim := by rw [← dropped_eq]; rfl
          cases looped : wormLoop random fuel dropped with
          | none =>
              rw [looped] at phased
              cases phased
          | some last =>
              rw [looped] at phased
              dsimp only at phased
              obtain ⟨kept, columnsKept, rowsKept⟩ := wormLoop_placed (by omega) placed looped
              by_cases more : 0 < last.remaining
              · rw [if_pos more] at phased
                have rest := ih (by omega) (by omega) kept.sound phased
                rwa [columnsKept, rowsKept, columns, rows] at rest
              · rw [if_neg more] at phased
                cases phased
                exact ⟨kept, not_lt.1 more, columnsKept.trans columns, rowsKept.trans rows⟩

end ComputerSystems.Mp2
