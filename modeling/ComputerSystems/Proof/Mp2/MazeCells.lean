import ComputerSystems.Construction.Mp2.Maze

namespace ComputerSystems.Mp2

/-- A mask distributes over a union of bits. -/
theorem or_and_mask (cell bits mask : UInt8) :
    (cell ||| bits) &&& mask = cell &&& mask ||| bits &&& mask := by
  apply UInt8.toBitVec_inj.1
  ext index
  simp [Bool.and_or_distrib_right]

/-- A mask that does not meet new bits does not see them. -/
theorem or_and_of_disjoint {bits mask : UInt8} (cell : UInt8) (disjoint : bits &&& mask = 0) :
    (cell ||| bits) &&& mask = cell &&& mask := by
  rw [or_and_mask, disjoint, UInt8.or_zero]

/-- A mask sees its own bits. -/
theorem or_and_ne_zero (cell : UInt8) {mask : UInt8} (nonzero : mask ≠ 0) :
    (cell ||| mask) &&& mask ≠ 0 := by
  intro none_left
  rw [or_and_mask, UInt8.and_self] at none_left
  refine nonzero (UInt8.toBitVec_inj.1 ?_)
  exact (BitVec.or_eq_zero_iff.1 (congrArg UInt8.toBitVec none_left)).2

namespace Maze

variable (maze : Maze)

@[simp] theorem put_xDim (x y : Nat) (value : UInt8) : (maze.put x y value).xDim = maze.xDim := rfl

@[simp] theorem put_yDim (x y : Nat) (value : UInt8) : (maze.put x y value).yDim = maze.yDim := rfl

variable {maze}

/-- Locations in different rows or columns have different indices. -/
theorem mazeIndex_inj {x y u v : Nat} (inside : x < 2 * maze.xDim) (other : u < 2 * maze.xDim) :
    maze.mazeIndex x y = maze.mazeIndex u v ↔ x = u ∧ y = v := by
  constructor
  · intro same
    have left : maze.mazeIndex x y = x + 2 * maze.xDim * (y + 1) := by rw [mazeIndex]; ring
    have right : maze.mazeIndex u v = u + 2 * maze.xDim * (v + 1) := by rw [mazeIndex]; ring
    rw [left, right] at same
    have columns := congrArg (· % (2 * maze.xDim)) same
    have rows := congrArg (· / (2 * maze.xDim)) same
    simp only [Nat.add_mul_mod_self_left, Nat.mod_eq_of_lt inside, Nat.mod_eq_of_lt other]
      at columns
    have positive : 0 < 2 * maze.xDim := lt_of_le_of_lt (Nat.zero_le x) inside
    simp only [Nat.add_mul_div_left _ _ positive, Nat.div_eq_of_lt inside,
      Nat.div_eq_of_lt other] at rows
    exact ⟨columns, by omega⟩
  · rintro ⟨rfl, rfl⟩
    rfl

/-- The steps of the index to the locations to the right, below, to the left and above. -/
theorem mazeIndex_add (x y step : Nat) :
    maze.mazeIndex x y + step = maze.mazeIndex (x + step) y := by
  simp only [mazeIndex]
  omega

theorem mazeIndex_below (x y : Nat) :
    maze.mazeIndex x y + 2 * maze.xDim = maze.mazeIndex x (y + 1) := by
  simp only [mazeIndex]
  ring

theorem mazeIndex_below_two (x y : Nat) :
    maze.mazeIndex x y + 4 * maze.xDim = maze.mazeIndex x (y + 2) := by
  simp only [mazeIndex]
  ring

theorem mazeIndex_sub (x y step : Nat) :
    maze.mazeIndex (x + step) y - step = maze.mazeIndex x y := by
  rw [← mazeIndex_add, Nat.add_sub_cancel]

theorem mazeIndex_above (x y : Nat) :
    maze.mazeIndex x (y + 1) - 2 * maze.xDim = maze.mazeIndex x y := by
  rw [← mazeIndex_below, Nat.add_sub_cancel]

theorem mazeIndex_above_two (x y : Nat) :
    maze.mazeIndex x (y + 2) - 4 * maze.xDim = maze.mazeIndex x y := by
  rw [← mazeIndex_below_two, Nat.add_sub_cancel]

/-- The right boundary is the left boundary of the next row. -/
theorem mazeIndex_right (y : Nat) :
    maze.mazeIndex (2 * maze.xDim) y = maze.mazeIndex 0 (y + 1) := by
  simp only [mazeIndex]
  ring

theorem get_right (y : Nat) : maze.get (2 * maze.xDim) y = maze.get 0 (y + 1) := by
  rw [get, get, mazeIndex_right]

@[simp] theorem get_put_self (x y : Nat) (value : UInt8) : (maze.put x y value).get x y = value :=
  Function.update_self ..

theorem get_put_of_ne {x y u v : Nat} {value : UInt8} (inside : x < 2 * maze.xDim)
    (other : u < 2 * maze.xDim) (apart : ¬ (u = x ∧ v = y)) :
    (maze.put x y value).get u v = maze.get u v := by
  refine Function.update_of_ne (fun same => apart ?_) ..
  exact (mazeIndex_inj other inside).1 same

theorem put_comm {x y u v : Nat} {value another : UInt8} (inside : x < 2 * maze.xDim)
    (other : u < 2 * maze.xDim) (apart : ¬ (u = x ∧ v = y)) :
    (maze.put x y value).put u v another = (maze.put u v another).put x y value := by
  have different : maze.mazeIndex u v ≠ maze.mazeIndex x y := fun same =>
    apart ((mazeIndex_inj other inside).1 same)
  have cells := Function.update_comm different.symm value another maze.cells
  exact congrArg (fun cells => { maze with cells := cells }) cells

/-- A lattice point with two odd coordinates. -/
def Room (maze : Maze) (x y : Nat) : Prop :=
  x % 2 = 1 ∧ y % 2 = 1 ∧ x < 2 * maze.xDim ∧ y < 2 * maze.yDim

/-- A location on the boundary, below it, or with two even coordinates. -/
def Solid (maze : Maze) (x y : Nat) : Prop :=
  x < 2 * maze.xDim ∧ (x = 0 ∨ y = 0 ∨ 2 * maze.yDim ≤ y ∨ (x % 2 = 0 ∧ y % 2 = 0))

theorem Room.not_solid {x y : Nat} (room : maze.Room x y) : ¬ maze.Solid x y := by
  obtain ⟨oddX, oddY, _, below⟩ := room
  rintro ⟨_, place⟩
  omega

/-- What holds of the cells all through the generation: the lattice is solid, the spaces between
lattice points are walls or open, and an open one joins two open lattice points. -/
structure Dug (maze : Maze) : Prop where
  solid : ∀ x y, maze.Solid x y → maze.get x y = mazeWall
  door : ∀ x y, x < 2 * maze.xDim → x % 2 ≠ y % 2 →
    maze.get x y = mazeWall ∨ maze.get x y = mazeNone
  room : ∀ x y, maze.Room x y →
    maze.get x y = mazeWall ∨ maze.get x y = mazeNone ∨ maze.get x y = mazeReach
  across : ∀ x y, maze.Room x y → maze.Room (x + 2) y → maze.get (x + 1) y = mazeNone →
    maze.get x y ≠ mazeWall ∧ maze.get (x + 2) y ≠ mazeWall
  down : ∀ x y, maze.Room x y → maze.Room x (y + 2) → maze.get x (y + 1) = mazeNone →
    maze.get x y ≠ mazeWall ∧ maze.get x (y + 2) ≠ mazeWall

namespace Dug

theorem filled (maze : Maze) : Dug { maze with cells := fun _ => mazeWall } where
  solid _ _ _ := rfl
  door _ _ _ _ := .inl rfl
  room _ _ _ := .inl rfl
  across _ _ _ _ opened := absurd (show mazeWall = mazeNone from opened) (by decide)
  down _ _ _ _ opened := absurd (show mazeWall = mazeNone from opened) (by decide)

/-- A lattice point may be opened or marked. -/
theorem put_room (dug : maze.Dug) {x y : Nat} {value : UInt8} (room : maze.Room x y)
    (opens : value = mazeNone ∨ value = mazeReach) : (maze.put x y value).Dug := by
  have clear : value ≠ mazeWall := by
    rcases opens with rfl | rfl <;> decide
  have inside := room.2.2.1
  have kept (u v : Nat) (other : u < 2 * maze.xDim) (apart : ¬ (u = x ∧ v = y)) :
      (maze.put x y value).get u v = maze.get u v := get_put_of_ne inside other apart
  have open_ (u v : Nat) (other : u < 2 * maze.xDim) (was : maze.get u v ≠ mazeWall) :
      (maze.put x y value).get u v ≠ mazeWall := by
    by_cases same : u = x ∧ v = y
    · rw [same.1, same.2, get_put_self]
      exact clear
    · rwa [kept u v other same]
  constructor
  · intro u v solid
    rw [kept u v solid.1 fun same => room.not_solid (same.1 ▸ same.2 ▸ solid)]
    exact dug.solid u v solid
  · intro u v other parity
    rw [kept u v other fun same => parity (by rw [same.1, same.2, room.1, room.2.1])]
    exact dug.door u v other parity
  · intro u v another
    by_cases same : u = x ∧ v = y
    · rw [same.1, same.2, get_put_self]
      exact .inr opens
    · rw [kept u v another.2.2.1 same]
      exact dug.room u v another
  · intro u v first second opened
    have bound : u + 2 < 2 * maze.xDim := second.2.2.1
    have between : u + 1 < 2 * maze.xDim := by omega
    rw [kept (u + 1) v between fun same => by have odd := room.1; have odds := first.1; omega]
      at opened
    have joined := dug.across u v first second opened
    exact ⟨open_ u v first.2.2.1 joined.1, open_ (u + 2) v second.2.2.1 joined.2⟩
  · intro u v first second opened
    rw [kept u (v + 1) first.2.2.1 fun same => by
      have odd := room.2.1; have odds := first.2.1; omega] at opened
    have joined := dug.down u v first second opened
    exact ⟨open_ u v first.2.2.1 joined.1, open_ u (v + 2) second.2.2.1 joined.2⟩

/-- A wall between two open lattice points may be knocked down. -/
theorem put_door (dug : maze.Dug) {x y : Nat} (inside : x < 2 * maze.xDim)
    (parity : x % 2 ≠ y % 2) (inner : ¬ maze.Solid x y)
    (across : ∀ u v, maze.Room u v → maze.Room (u + 2) v → u + 1 = x ∧ v = y →
      maze.get u v ≠ mazeWall ∧ maze.get (u + 2) v ≠ mazeWall)
    (down : ∀ u v, maze.Room u v → maze.Room u (v + 2) → u = x ∧ v + 1 = y →
      maze.get u v ≠ mazeWall ∧ maze.get u (v + 2) ≠ mazeWall) :
    (maze.put x y mazeNone).Dug := by
  have kept (u v : Nat) (other : u < 2 * maze.xDim) (apart : ¬ (u = x ∧ v = y)) :
      (maze.put x y mazeNone).get u v = maze.get u v := get_put_of_ne inside other apart
  have room_kept (u v : Nat) (room : maze.Room u v) :
      (maze.put x y mazeNone).get u v = maze.get u v :=
    kept u v room.2.2.1 fun same => parity (by rw [← same.1, ← same.2, room.1, room.2.1])
  constructor
  · intro u v solid
    rw [kept u v solid.1 fun same => inner (same.1 ▸ same.2 ▸ solid)]
    exact dug.solid u v solid
  · intro u v other parities
    by_cases same : u = x ∧ v = y
    · rw [same.1, same.2, get_put_self]
      exact .inr rfl
    · rw [kept u v other same]
      exact dug.door u v other parities
  · intro u v room
    rw [room_kept u v room]
    exact dug.room u v room
  · intro u v first second opened
    rw [room_kept u v first, room_kept (u + 2) v second]
    have bound : u + 2 < 2 * maze.xDim := second.2.2.1
    have between : u + 1 < 2 * maze.xDim := by omega
    by_cases same : u + 1 = x ∧ v = y
    · exact across u v first second same
    · rw [kept (u + 1) v between same] at opened
      exact dug.across u v first second opened
  · intro u v first second opened
    rw [room_kept u v first, room_kept u (v + 2) second]
    by_cases same : u = x ∧ v + 1 = y
    · exact down u v first second same
    · rw [kept u (v + 1) first.2.2.1 same] at opened
      exact dug.down u v first second opened

theorem put_across (dug : maze.Dug) {x y : Nat} (first : maze.Room x y)
    (second : maze.Room (x + 2) y) (left : maze.get x y ≠ mazeWall)
    (right : maze.get (x + 2) y ≠ mazeWall) : (maze.put (x + 1) y mazeNone).Dug := by
  obtain ⟨oddX, oddY, _, below⟩ := first
  have bound := second.2.2.1
  refine dug.put_door (by omega) (by omega) (fun solid => ?_) ?_ ?_
  · obtain ⟨_, place⟩ := solid
    omega
  · rintro u v _ _ ⟨same, rfl⟩
    obtain rfl : u = x := by omega
    exact ⟨left, right⟩
  · rintro u v room _ ⟨rfl, _⟩
    have odd := room.1
    omega

theorem put_down (dug : maze.Dug) {x y : Nat} (first : maze.Room x y)
    (second : maze.Room x (y + 2)) (up : maze.get x y ≠ mazeWall)
    (low : maze.get x (y + 2) ≠ mazeWall) : (maze.put x (y + 1) mazeNone).Dug := by
  obtain ⟨oddX, oddY, inside, _⟩ := first
  have bound := second.2.2.2
  refine dug.put_door inside (by omega) (fun solid => ?_) ?_ ?_
  · obtain ⟨_, place⟩ := solid
    omega
  · rintro u v room _ ⟨_, rfl⟩
    have odd := room.2.1
    omega
  · rintro u v _ _ ⟨rfl, same⟩
    obtain rfl : v = y := by omega
    exact ⟨up, low⟩

end Dug

/-- The number of lattice points whose cell is of a kind. -/
def count (maze : Maze) (kind : UInt8 → Bool) : Nat :=
  ((Finset.range maze.xDim ×ˢ Finset.range maze.yDim).filter fun point =>
    kind (maze.get (point.1 * 2 + 1) (point.2 * 2 + 1)) = true).card

theorem count_congr {other : Maze} {kind : UInt8 → Bool} (xDim : other.xDim = maze.xDim)
    (yDim : other.yDim = maze.yDim)
    (same : ∀ x y, maze.Room x y → kind (other.get x y) = kind (maze.get x y)) :
    other.count kind = maze.count kind := by
  rw [count, count, xDim, yDim]
  refine congrArg Finset.card (Finset.filter_congr fun point member => ?_)
  rw [Finset.mem_product, Finset.mem_range, Finset.mem_range] at member
  rw [same]
  exact ⟨by omega, by omega, by omega, by omega⟩

theorem count_of_all {kind : UInt8 → Bool}
    (all : ∀ x y, maze.Room x y → kind (maze.get x y) = true) :
    maze.count kind = maze.xDim * maze.yDim := by
  rw [count, Finset.filter_true_of_mem, Finset.card_product, Finset.card_range, Finset.card_range]
  intro point member
  rw [Finset.mem_product, Finset.mem_range, Finset.mem_range] at member
  exact all _ _ ⟨by omega, by omega, by omega, by omega⟩

theorem none_of_count {kind : UInt8 → Bool} (zero : maze.count kind = 0) {x y : Nat}
    (room : maze.Room x y) : kind (maze.get x y) = false := by
  obtain ⟨oddX, oddY, inside, below⟩ := room
  rw [count, Finset.card_eq_zero, Finset.filter_eq_empty_iff] at zero
  have absent := zero (x := (x / 2, y / 2)) (Finset.mem_product.2
    ⟨Finset.mem_range.2 (by dsimp only; omega), Finset.mem_range.2 (by dsimp only; omega)⟩)
  have column : x / 2 * 2 + 1 = x := by omega
  have row : y / 2 * 2 + 1 = y := by omega
  rw [column, row] at absent
  exact eq_false_of_ne_true absent

theorem exists_of_count {kind : UInt8 → Bool} (some_left : maze.count kind ≠ 0) :
    ∃ x y, maze.Room x y ∧ kind (maze.get x y) = true := by
  obtain ⟨point, member⟩ := Finset.card_ne_zero.1 some_left
  obtain ⟨inside, known⟩ := Finset.mem_filter.1 member
  obtain ⟨column, row⟩ := Finset.mem_product.1 inside
  rw [Finset.mem_range] at column row
  exact ⟨_, _, ⟨by omega, by omega, by omega, by omega⟩, known⟩

/-- The change of one lattice point that leaves the kind lowers the count by one. -/
theorem count_put {kind : UInt8 → Bool} {x y : Nat} {value : UInt8} (room : maze.Room x y)
    (before : kind (maze.get x y) = true) (after : kind value = false) :
    (maze.put x y value).count kind + 1 = maze.count kind := by
  obtain ⟨oddX, oddY, inside, below⟩ := room
  have column : x / 2 * 2 + 1 = x := by omega
  have row : y / 2 * 2 + 1 = y := by omega
  have member : (x / 2, y / 2) ∈ (Finset.range maze.xDim ×ˢ Finset.range maze.yDim).filter
      fun point => kind (maze.get (point.1 * 2 + 1) (point.2 * 2 + 1)) = true := by
    rw [Finset.mem_filter, Finset.mem_product, Finset.mem_range, Finset.mem_range, column, row]
    exact ⟨⟨by dsimp only; omega, by dsimp only; omega⟩, before⟩
  rw [count, count, ← Finset.card_erase_add_one member, put_xDim, put_yDim]
  refine congrArg (· + 1) (congrArg Finset.card (Finset.ext fun point => ?_))
  rw [Finset.mem_erase, Finset.mem_filter, Finset.mem_filter, Finset.mem_product,
    Finset.mem_range, Finset.mem_range]
  by_cases same : point = (x / 2, y / 2)
  · subst same
    simp [column, row, after]
  · have apart : ¬ (point.1 * 2 + 1 = x ∧ point.2 * 2 + 1 = y) := fun equal =>
      same (Prod.ext (by dsimp only; omega) (by dsimp only; omega))
    constructor
    · rintro ⟨bounds, holds⟩
      rw [get_put_of_ne inside (by omega) apart] at holds
      exact ⟨same, bounds, holds⟩
    · rintro ⟨_, bounds, holds⟩
      rw [get_put_of_ne inside (by omega) apart]
      exact ⟨bounds, holds⟩

/-- A change between lattice points keeps every count. -/
theorem count_put_door {kind : UInt8 → Bool} {x y : Nat} {value : UInt8}
    (inside : x < 2 * maze.xDim) (parity : x % 2 ≠ y % 2) :
    (maze.put x y value).count kind = maze.count kind :=
  count_congr rfl rfl fun u v room => by
    rw [get_put_of_ne inside room.2.2.1 fun same => parity (by
      rw [← same.1, ← same.2, room.1, room.2.1])]

end Maze

end ComputerSystems.Mp2
