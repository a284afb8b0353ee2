import ComputerSystems.Proof.Mp2.MazeCells

namespace ComputerSystems.Mp2

namespace Maze

/-- A cell that is not a wall. -/
def Open (maze : Maze) (x y : Nat) : Prop := maze.get x y &&& mazeWall = 0

/-- All locations of the boundary are walls. -/
def Walled (maze : Maze) : Prop :=
  ∀ x y, x ≤ 2 * maze.xDim → y ≤ 2 * maze.yDim →
    (x = 0 ∨ y = 0 ∨ x = 2 * maze.xDim ∨ y = 2 * maze.yDim) → ¬ maze.Open x y

/-- The solid locations are no way. -/
theorem Dug.not_open {maze : Maze} (dug : maze.Dug) {x y : Nat} (solid : maze.Solid x y) :
    ¬ maze.Open x y := by
  rw [Open, dug.solid x y solid]
  decide

/-- The boundary is solid, also where the right column is stored in the left one. -/
theorem Dug.walled {maze : Maze} (dug : maze.Dug) (wide : 0 < maze.xDim) : maze.Walled := by
  intro x y inside _ edge
  by_cases right : x = 2 * maze.xDim
  · rw [right, Open, get_right]
    exact dug.not_open ⟨by omega, .inl rfl⟩
  · exact dug.not_open ⟨by omega, by omega⟩

/-- A step between neighbouring lattice points through the open space between them. -/
inductive Passage (maze : Maze) : Nat × Nat → Nat × Nat → Prop
  | up {x y : Nat} (start : maze.Room x (y + 2)) (stop : maze.Room x y)
      (way : maze.Open x (y + 1)) : Passage maze (x, y + 2) (x, y)
  | right {x y : Nat} (start : maze.Room x y) (stop : maze.Room (x + 2) y)
      (way : maze.Open (x + 1) y) : Passage maze (x, y) (x + 2, y)
  | down {x y : Nat} (start : maze.Room x y) (stop : maze.Room x (y + 2))
      (way : maze.Open x (y + 1)) : Passage maze (x, y) (x, y + 2)
  | left {x y : Nat} (start : maze.Room (x + 2) y) (stop : maze.Room x y)
      (way : maze.Open (x + 1) y) : Passage maze (x + 2, y) (x, y)

variable {maze : Maze}

theorem Passage.start {point next : Nat × Nat} (passage : maze.Passage point next) :
    maze.Room point.1 point.2 := by
  cases passage with
  | up start => exact start
  | right start => exact start
  | down start => exact start
  | left start => exact start

theorem Passage.stop {point next : Nat × Nat} (passage : maze.Passage point next) :
    maze.Room next.1 next.2 := by
  cases passage with
  | up _ stop => exact stop
  | right _ stop => exact stop
  | down _ stop => exact stop
  | left _ stop => exact stop

/-- More open spaces give more passages. -/
theorem Passage.mono {other : Maze} {point next : Nat × Nat} (passage : maze.Passage point next)
    (xDim : other.xDim = maze.xDim) (yDim : other.yDim = maze.yDim)
    (opens : ∀ x y, x < 2 * maze.xDim → x % 2 ≠ y % 2 → maze.Open x y → other.Open x y) :
    other.Passage point next := by
  have rooms (u v : Nat) (room : maze.Room u v) : other.Room u v := by
    rw [Room, xDim, yDim]
    exact room
  cases passage with
  | up start stop way =>
      have odd := start.1
      have row := start.2.1
      exact .up (rooms _ _ start) (rooms _ _ stop) (opens _ _ start.2.2.1 (by omega) way)
  | right start stop way =>
      have odd := start.1
      have row := start.2.1
      have bound := stop.2.2.1
      exact .right (rooms _ _ start) (rooms _ _ stop) (opens _ _ (by omega) (by omega) way)
  | down start stop way =>
      have odd := start.1
      have row := start.2.1
      exact .down (rooms _ _ start) (rooms _ _ stop) (opens _ _ start.2.2.1 (by omega) way)
  | left start stop way =>
      have odd := stop.1
      have row := stop.2.1
      have bound := start.2.2.1
      exact .left (rooms _ _ start) (rooms _ _ stop) (opens _ _ (by omega) (by omega) way)

/-- The index of a lattice point. -/
def index (maze : Maze) (point : Nat × Nat) : Nat := maze.mazeIndex point.1 point.2

theorem index_inj {point other : Nat × Nat} (room : maze.Room point.1 point.2)
    (another : maze.Room other.1 other.2) :
    maze.index point = maze.index other ↔ point = other := by
  rw [index, index, mazeIndex_inj room.2.2.1 another.2.2.1, Prod.ext_iff]

/-- The spaces next to a location, each with the location behind it, in the order of the search. -/
def doors (maze : Maze) (cur : Nat) : List (Nat × Nat) :=
  [(cur - 2 * maze.xDim, cur - 4 * maze.xDim), (cur + 1, cur + 2),
    (cur + 2 * maze.xDim, cur + 4 * maze.xDim), (cur - 1, cur - 2)]

/-- In a walled maze an open space next to a lattice point leads to another one. -/
theorem Walled.leads (walled : maze.Walled) {point door : Nat × Nat}
    (room : maze.Room point.1 point.2) (member : door ∈ maze.doors (maze.index point))
    (way : maze.cells door.1 &&& mazeWall = 0) :
    ∃ next, maze.Passage point next ∧ door.2 = maze.index next := by
  obtain ⟨x, y⟩ := point
  obtain ⟨oddX, oddY, inside, below⟩ := id room
  dsimp only [index] at *
  simp only [doors, List.mem_cons, List.not_mem_nil, or_false] at member
  obtain rfl | rfl | rfl | rfl := member
  · obtain ⟨low, rfl⟩ : ∃ low, y = low + 1 := ⟨y - 1, by omega⟩
    rw [mazeIndex_above] at way
    cases low with
    | zero => exact absurd way (walled x 0 (by omega) (by omega) (.inr (.inl rfl)))
    | succ low =>
        have next : maze.Room x low := ⟨oddX, by omega, inside, by omega⟩
        exact ⟨(x, low), .up room next way, mazeIndex_above_two x low⟩
  · rw [mazeIndex_add] at way
    by_cases last : x + 1 = 2 * maze.xDim
    · exact absurd way (walled (x + 1) y (by omega) (by omega) (.inr (.inr (.inl last))))
    · have next : maze.Room (x + 2) y := ⟨by omega, oddY, by omega, below⟩
      exact ⟨(x + 2, y), .right room next way, mazeIndex_add x y 2⟩
  · rw [mazeIndex_below] at way
    by_cases last : y + 1 = 2 * maze.yDim
    · exact absurd way (walled x (y + 1) (by omega) (by omega) (.inr (.inr (.inr last))))
    · have next : maze.Room x (y + 2) := ⟨oddX, by omega, inside, by omega⟩
      exact ⟨(x, y + 2), .down room next way, mazeIndex_below_two x y⟩
  · obtain ⟨low, rfl⟩ : ∃ low, x = low + 1 := ⟨x - 1, by omega⟩
    rw [mazeIndex_sub] at way
    cases low with
    | zero => exact absurd way (walled 0 y (by omega) (by omega) (.inl rfl))
    | succ low =>
        have next : maze.Room low y := ⟨by omega, oddY, by omega, below⟩
        exact ⟨(low, y), .left room next way, mazeIndex_sub low y 2⟩

/-- Each passage goes through one of the spaces next to its start. -/
theorem Passage.door {point next : Nat × Nat} (passage : maze.Passage point next) :
    ∃ door ∈ maze.doors (maze.index point),
      maze.cells door.1 &&& mazeWall = 0 ∧ door.2 = maze.index next := by
  cases passage with
  | @up x y start stop way =>
      refine ⟨_, List.mem_cons_self, ?_, mazeIndex_above_two x y⟩
      rw [index, mazeIndex_above x (y + 1)]
      exact way
  | @right x y start stop way =>
      refine ⟨_, List.mem_cons_of_mem _ List.mem_cons_self, ?_, mazeIndex_add x y 2⟩
      rw [index, mazeIndex_add]
      exact way
  | @down x y start stop way =>
      refine ⟨_, List.mem_cons_of_mem _ (List.mem_cons_of_mem _ List.mem_cons_self), ?_,
        mazeIndex_below_two x y⟩
      rw [index, mazeIndex_below]
      exact way
  | @left x y start stop way =>
      refine ⟨_, List.mem_cons_of_mem _ (List.mem_cons_of_mem _ (List.mem_cons_of_mem _
        List.mem_cons_self)), ?_, mazeIndex_sub x y 2⟩
      rw [index, mazeIndex_sub (x + 1) y 1]
      exact way

end Maze

def smallest : Maze := ⟨fun _ => 0, mazeMinXDim, mazeMinYDim, 0, 0, 0⟩

/-- The smallest maze with its boundary as its only walls. -/
def hall : Maze :=
  { smallest with
    cells := fun place =>
      if place % 28 = 0 ∨ place < 56 ∨ 476 ≤ place then mazeWall else mazeNone }

theorem hall_walled : hall.Walled := by
  have walls : ∀ x ≤ 28, ∀ y ≤ 16, (x = 0 ∨ y = 0 ∨ x = 28 ∨ y = 16) →
      ¬ hall.get x y &&& mazeWall = 0 := by decide +kernel
  exact fun x y inside below => walls x inside y below

end ComputerSystems.Mp2
