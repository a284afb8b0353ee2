import ComputerSystems.Proof.Mp2.Connected

namespace ComputerSystems.Mp2

open Library Maze

/-- The scan is in force, and the marked lattice points are exactly the reachable ones. -/
structure Scanning (repair : Repair) : Prop extends Repairing repair where
  complete : ∀ x y, repair.maze.Room x y → repair.maze.Reachable x y →
    repair.maze.get x y = mazeReach
  inForce : repair.remaining < 20 ∨ 100 ≤ repair.trials

/-- The repair has removed a wall and has fewer lattice points left. -/
structure Advances (before after : Repair) : Prop where
  removed : ∃ x y, ¬ before.maze.Open x y ∧ after.maze.Open x y
  fewer : after.remaining < before.remaining

/-- A new way adds no other passage than its own. -/
theorem Maze.Passage.of_put {maze : Maze} {doorX doorY : Nat} {value : UInt8}
    (inside : doorX < 2 * maze.xDim) {point next : Nat × Nat}
    (passage : (maze.put doorX doorY value).Passage point next) :
    maze.Passage point next ∨ point.1 + next.1 = 2 * doorX ∧ point.2 + next.2 = 2 * doorY := by
  have kept (x y : Nat) (within : x < 2 * maze.xDim) (apart : ¬ (x = doorX ∧ y = doorY))
      (way : (maze.put doorX doorY value).Open x y) : maze.Open x y := by
    rwa [Open, get_put_of_ne inside within apart] at way
  cases passage with
  | @up x y start stop way =>
      by_cases same : x = doorX ∧ y + 1 = doorY
      · exact .inr ⟨by dsimp only; omega, by dsimp only; omega⟩
      · exact .inl (.up start stop (kept x (y + 1) start.2.2.1 same way))
  | @right x y start stop way =>
      have within : x + 2 < 2 * maze.xDim := stop.2.2.1
      by_cases same : x + 1 = doorX ∧ y = doorY
      · exact .inr ⟨by dsimp only; omega, by dsimp only; omega⟩
      · exact .inl (.right start stop (kept (x + 1) y (by omega) same way))
  | @down x y start stop way =>
      by_cases same : x = doorX ∧ y + 1 = doorY
      · exact .inr ⟨by dsimp only; omega, by dsimp only; omega⟩
      · exact .inl (.down start stop (kept x (y + 1) start.2.2.1 same way))
  | @left x y start stop way =>
      have within : x + 2 < 2 * maze.xDim := start.2.2.1
      by_cases same : x + 1 = doorX ∧ y = doorY
      · exact .inr ⟨by dsimp only; omega, by dsimp only; omega⟩
      · exact .inl (.left start stop (kept (x + 1) y (by omega) same way))

/-- A lattice point two steps away in one direction. -/
def Beside (point next : Nat × Nat) : Prop :=
  (point.1 = next.1 ∧ (point.2 + 2 = next.2 ∨ next.2 + 2 = point.2)) ∨
    (point.2 = next.2 ∧ (point.1 + 2 = next.1 ∨ next.1 + 2 = point.1))

theorem Maze.Passage.beside {maze : Maze} {point next : Nat × Nat}
    (passage : maze.Passage point next) : Beside point next := by
  cases passage with
  | up => exact .inl ⟨rfl, .inr rfl⟩
  | right => exact .inr ⟨rfl, .inl rfl⟩
  | down => exact .inl ⟨rfl, .inl rfl⟩
  | left => exact .inr ⟨rfl, .inr rfl⟩

/-- The marked lattice points. -/
def Maze.reached (maze : Maze) : Set (Nat × Nat) :=
  {point | maze.Room point.1 point.2 ∧ maze.get point.1 point.2 = mazeReach}

/-- The marked lattice points are the ones with a path from (1,1). -/
theorem Scanning.component {repair : Repair} (scanning : Scanning repair) (point : Nat × Nat) :
    point ∈ repair.maze.reached ↔ Relation.ReflTransGen repair.maze.Passage (1, 1) point := by
  constructor
  · rintro ⟨room, cell⟩
    exact scanning.marked.reachable _ _ room cell
  · intro path
    have room : repair.maze.Room point.1 point.2 := by
      rcases path.cases_tail with rfl | ⟨_, _, step⟩
      · have inside := scanning.room.2.2.1
        have below := scanning.room.2.2.2
        exact ⟨rfl, rfl, by dsimp only; omega, by dsimp only; omega⟩
      · exact step.stop
    exact ⟨room, scanning.complete _ _ room path⟩

namespace Breach

variable {repair : Repair} {u v doorX doorY : Nat}

/-- The new way joins the marked point and the point of the repair. -/
theorem link (door : Breach repair u v doorX doorY) :
    (repair.maze.put doorX doorY mazeNone).Passage (u, v) (repair.x, repair.y) := by
  refine door.passage _ ?_
  change (repair.maze.put doorX doorY mazeNone).get doorX doorY &&& mazeWall = 0
  rw [get_put_self]
  decide

/-- The lattice points keep their cells. -/
theorem kept (door : Breach repair u v doorX doorY) {x y : Nat} (room : repair.maze.Room x y) :
    (repair.maze.put doorX doorY mazeNone).get x y = repair.maze.get x y :=
  get_put_of_ne door.inside room.2.2.1 fun same => door.parity (by
    rw [← same.1, ← same.2, room.1, room.2.1])

/-- A passage through the door is between its two sides. -/
theorem sides (door : Breach repair u v doorX doorY) {point next : Nat × Nat}
    (passage : (repair.maze.put doorX doorY mazeNone).Passage point next)
    (middleX : point.1 + next.1 = 2 * doorX) (middleY : point.2 + next.2 = 2 * doorY) :
    (point = (u, v) ∧ next = (repair.x, repair.y)) ∨
      (point = (repair.x, repair.y) ∧ next = (u, v)) := by
  have halfX := door.middleX
  have halfY := door.middleY
  have parity := door.parity
  have near := door.link.beside
  have other := passage.beside
  have oddX := passage.start.1
  have oddY := passage.start.2.1
  have oddU := door.near.1
  have oddV := door.near.2.1
  simp only [Beside] at near other
  simp only [Prod.ext_iff]
  omega

/-- The wall at the door stood between a reachable point and an unreachable one. -/
theorem wall (door : Breach repair u v doorX doorY) (scanning : Scanning repair)
    (bit : repair.maze.get repair.x repair.y &&& mazeReach = 0) :
    ¬ repair.maze.Open doorX doorY := by
  intro way
  have reachable : repair.maze.Reachable repair.x repair.y :=
    (scanning.marked.reachable u v door.near door.cell).tail (door.passage repair.maze.cells way)
  rw [scanning.complete _ _ scanning.room reachable] at bit
  exact absurd bit (by decide)

/-- The marks after the search are again on exactly the reachable points. -/
theorem complete (door : Breach repair u v doorX doorY) (scanning : Scanning repair)
    {points : List (Nat × Nat)}
    (joined : ∀ point, point ∈ points ↔ Joined (repair.maze.put doorX doorY mazeNone).Passage
      (repair.maze.put doorX doorY mazeNone).fresh (repair.x, repair.y) point)
    {unmarked : Int} (marked : ((repair.maze.put doorX doorY mazeNone).mark points).Marked unmarked)
    {x y : Nat} (room : repair.maze.Room x y)
    (reachable : ((repair.maze.put doorX doorY mazeNone).mark points).Reachable x y) :
    ((repair.maze.put doorX doorY mazeNone).mark points).get x y = mazeReach := by
  have only (node next : Nat × Nat)
      (passage : (repair.maze.put doorX doorY mazeNone).Passage node next) :=
    (passage.of_put door.inside).imp_right fun middle => door.sides passage middle.1 middle.2
  have grows (node next : Nat × Nat) (passage : repair.maze.Passage node next) :
      (repair.maze.put doorX doorY mazeNone).Passage node next :=
    passage.mono rfl rfl fun a b within _ way => by
      by_cases same : a = doorX ∧ b = doorY
      · rw [Open, same.1, same.2, get_put_self]
        decide
      · rw [Open, get_put_of_ne door.inside within same]
        exact way
  have path : Relation.ReflTransGen (repair.maze.put doorX doorY mazeNone).Passage (1, 1) (x, y) :=
    reachable.mono rfl rfl fun a b _ _ way => (mark_open points a b).1 way
  have inner (point : Nat × Nat) (member : point ∈ points) :
      repair.maze.Room point.1 point.2 := by
    rcases ((joined point).1 member).cases_tail with rfl | ⟨_, _, step⟩
    · exact scanning.room
    · exact step.1.stop
  refine marked.get_of_marked room fun clear => ?_
  obtain ⟨fresh, absent⟩ := (@mark_reach (repair.maze.put doorX doorY mazeNone) points inner (x, y)
    room).1 clear
  rcases (component_grows scanning.component grows only ⟨door.near, door.cell⟩ door.link
    (x, y)).1 path with old | new
  · have cell : repair.maze.get x y &&& mazeReach = 0 := door.kept room ▸ fresh
    rw [old.2] at cell
    exact absurd cell (by decide)
  · refine absent ((joined (x, y)).2
      (Relation.ReflTransGen.mono (fun node next step => ?_) _ _ new))
    have stop : repair.maze.Room next.1 next.2 := step.1.stop
    refine ⟨step.1, ?_⟩
    change (repair.maze.put doorX doorY mazeNone).get next.1 next.2 &&& mazeReach = 0
    rw [door.kept stop]
    by_contra bit
    exact step.2 ⟨stop, scanning.marked.get_of_marked stop bit⟩

end Breach

/-- A breach next to an unmarked point advances the repair, and the scan stays in force. -/
theorem Scanning.connect {repair : Repair} (scanning : Scanning repair) {fuel : Nat} {maze : Maze}
    (bit : repair.maze.get repair.x repair.y &&& mazeReach = 0)
    (enough : repair.maze.xDim * repair.maze.yDim < fuel) (breached : repair.breach = some maze) :
    ∃ after, repair.connect fuel = some after ∧ Scanning after ∧
      after.maze.xDim = repair.maze.xDim ∧ after.maze.yDim = repair.maze.yDim ∧
      Advances repair after := by
  obtain ⟨u, v, doorX, doorY, door, rfl⟩ := scanning.opens breached
  obtain ⟨opened, reachable, same, _⟩ := scanning.breach breached
  have walled := opened.dug.walled (by
    have inside := scanning.room.2.2.1
    change 0 < repair.maze.xDim
    omega)
  obtain ⟨after, count, searched⟩ := @markMazeArea_ends (repair.maze.put doorX doorY mazeNone)
    walled (repair.x, repair.y) fuel scanning.room enough
  have result : repair.connect fuel =
      some { repair with maze := after, remaining := repair.remaining - count } := by
    rw [Repair.connect, breached]
    dsimp only
    rw [searched]
    rfl
  obtain ⟨kept, _⟩ := opened.markMazeArea scanning.room (by rwa [same]) reachable searched
  obtain ⟨points, _, length, rfl, joined⟩ := @markMazeArea_spec
    (repair.maze.put doorX doorY mazeNone) walled (repair.x, repair.y) fuel count after
    scanning.room searched
  have positive : 0 < points.length := List.length_pos_of_mem ((joined _).2 .refl)
  refine ⟨_, result, ⟨⟨kept, scanning.room⟩, fun x y room path => ?_, ?_⟩, rfl, rfl,
    ⟨⟨doorX, doorY, door.wall scanning bit, ?_⟩, ?_⟩⟩
  · exact door.complete scanning joined kept room path
  · exact scanning.inForce.imp_left fun few => by dsimp only; omega
  · rw [mark_open, Open, get_put_self]
    decide
  · dsimp only
    omega

/-- The number of the lattice point in the order of the scan. -/
def Repair.cursor (repair : Repair) : Nat := repair.y / 2 * repair.maze.xDim + repair.x / 2

/-- The number of a lattice point is below the number of all. -/
theorem cursor_lt {maze : Maze} {x y : Nat} (room : maze.Room x y) :
    y / 2 * maze.xDim + x / 2 < maze.xDim * maze.yDim := by
  obtain ⟨_, _, inside, below⟩ := room
  have rows : (y / 2 + 1) * maze.xDim ≤ maze.yDim * maze.xDim :=
    Nat.mul_le_mul_right _ (by omega)
  rw [Nat.add_one_mul, Nat.mul_comm maze.yDim] at rows
  omega

/-- The scan goes through the numbers in a circle. -/
theorem Repair.cursor_advance {repair : Repair} (room : repair.maze.Room repair.x repair.y) :
    repair.advance.cursor = (repair.cursor + 1) % (repair.maze.xDim * repair.maze.yDim) := by
  obtain ⟨oddX, oddY, inside, below⟩ := id room
  dsimp only [advance]
  split_ifs with wide high
  · have row : repair.y / 2 + 1 = repair.maze.yDim := by omega
    have last : repair.cursor + 1 = repair.maze.xDim * repair.maze.yDim := by
      rw [cursor, ← row, Nat.mul_comm repair.maze.xDim, Nat.add_one_mul]
      omega
    have top : (repair.y + 2 - 2 * repair.maze.yDim) / 2 = 0 := by omega
    have edge : (repair.x + 2 - repair.maze.xDim * 2) / 2 = 0 := by omega
    rw [last, Nat.mod_self]
    dsimp only [cursor]
    rw [top, edge, Nat.zero_mul]
  · have next : repair.maze.Room 1 (repair.y + 2) := ⟨rfl, by omega, by omega, by omega⟩
    have number : repair.cursor + 1 = (repair.y + 2) / 2 * repair.maze.xDim + 1 / 2 := by
      rw [cursor, Nat.add_div_right _ Nat.two_pos, Nat.add_one_mul]
      omega
    have edge : (repair.x + 2 - repair.maze.xDim * 2) / 2 = 1 / 2 := by omega
    rw [number, Nat.mod_eq_of_lt (cursor_lt next)]
    dsimp only [cursor]
    rw [edge]
  · have next : repair.maze.Room (repair.x + 2) repair.y := ⟨by omega, oddY, by omega, below⟩
    have number : repair.cursor + 1 = repair.y / 2 * repair.maze.xDim + (repair.x + 2) / 2 := by
      rw [cursor]
      omega
    rw [number, Nat.mod_eq_of_lt (cursor_lt next)]
    rfl

/-- The scan keeps all but its point. -/
theorem Repair.advance_kept (repair : Repair) : repair.advance.maze = repair.maze ∧
    repair.advance.remaining = repair.remaining ∧ repair.advance.trials = repair.trials := by
  rw [advance]
  split_ifs <;> exact ⟨rfl, rfl, rfl⟩

/-- One point of the scan does not advance the repair. -/
structure Passes (before after : Repair) : Prop where
  maze : after.maze = before.maze
  remaining : after.remaining = before.remaining
  cursor : after.cursor = (before.cursor + 1) % (before.maze.xDim * before.maze.yDim)
  stuck : after.maze.get after.x after.y &&& mazeReach = 0 → after.breach = none

/-- One round keeps the scan in force and the size of the maze. -/
structure Rounds (before after : Repair) : Prop where
  scanning : Scanning after
  xDim : after.maze.xDim = before.maze.xDim
  yDim : after.maze.yDim = before.maze.yDim
  progress : Advances before after ∨ Passes before after

theorem Scanning.advance {repair : Repair} (scanning : Scanning repair) :
    Scanning repair.advance := by
  obtain ⟨maze, remaining, trials⟩ := repair.advance_kept
  refine ⟨scanning.toRepairing.advance.1, ?_, ?_⟩
  · rw [maze]
    exact scanning.complete
  · rw [remaining, trials]
    exact scanning.inForce

theorem Scanning.scan {repair : Repair} (scanning : Scanning repair) {fuel : Nat}
    (enough : repair.maze.xDim * repair.maze.yDim < fuel) :
    ∃ after, repair.scan fuel = some after ∧ Rounds repair after := by
  obtain ⟨maze, remaining, _⟩ := repair.advance_kept
  have next := scanning.advance
  have passes (stuck : repair.advance.maze.get repair.advance.x repair.advance.y &&& mazeReach = 0 →
      repair.advance.breach = none) : Rounds repair repair.advance :=
    ⟨next, by rw [maze], by rw [maze],
      .inr ⟨maze, remaining, Repair.cursor_advance scanning.room, stuck⟩⟩
  rw [Repair.scan]
  by_cases bit : repair.advance.maze.get repair.advance.x repair.advance.y &&& mazeReach = 0
  · rw [if_neg (not_not.2 bit)]
    cases breached : repair.advance.breach with
    | none =>
        refine ⟨repair.advance, ?_, passes fun _ => breached⟩
        rw [Repair.connect, breached]
    | some opened =>
        obtain ⟨after, connected, kept, columns, rows, removed, fewer⟩ :=
          next.connect bit (by rwa [maze]) breached
        rw [maze] at columns rows removed
        rw [remaining] at fewer
        exact ⟨after, connected, kept, columns, rows, .inl ⟨removed, fewer⟩⟩
  · rw [if_pos bit]
    exact ⟨repair.advance, rfl, passes fun clear => absurd clear bit⟩

/-- While the scan is in force each round is one of its points. -/
theorem Scanning.body {repair : Repair} (scanning : Scanning repair) (random : Nat → Nat)
    {fuel : Nat} (enough : repair.maze.xDim * repair.maze.yDim < fuel) :
    ∃ after, repair.body random fuel = some after ∧ Rounds repair after := by
  rw [Repair.body]
  by_cases few : repair.remaining < 20
  · rw [if_pos few]
    exact scanning.scan enough
  · have many := scanning.inForce.resolve_left few
    have counted : Scanning { repair with trials := repair.trials + 1 } :=
      ⟨⟨scanning.marked, scanning.room⟩, scanning.complete, .inr (by dsimp only; omega)⟩
    obtain ⟨after, scanned, kept, columns, rows, progress⟩ := counted.scan enough
    rw [if_neg few, if_pos (by dsimp only; omega)]
    refine ⟨after, scanned, kept, columns, rows, ?_⟩
    rcases progress with ⟨removed, fewer⟩ | ⟨same, left, cursor, stuck⟩
    · exact .inl ⟨removed, fewer⟩
    · exact .inr ⟨same, left, cursor, stuck⟩

/-- A point without a breach has no marked neighbour. -/
theorem Repair.breach_none {repair : Repair} (room : repair.maze.Room repair.x repair.y)
    (breached : repair.breach = none) {point : Nat × Nat}
    (other : repair.maze.Room point.1 point.2) (beside : Beside point (repair.x, repair.y)) :
    repair.maze.get point.1 point.2 &&& mazeReach = 0 := by
  obtain ⟨u, v⟩ := point
  obtain ⟨oddU, oddV, inner, lower⟩ := other
  obtain ⟨_, _, inside, below⟩ := room
  rw [breach] at breached
  dsimp only [Beside] at *
  split_ifs at breached with up left right down
  by_contra bit
  rcases beside with ⟨rfl, low | high⟩ | ⟨rfl, low | high⟩
  · refine up ⟨by omega, ?_⟩
    rw [← low, mazeIndex_above_two]
    exact bit
  · refine down ⟨by omega, ?_⟩
    rw [mazeIndex_below_two, high]
    exact bit
  · refine left ⟨by omega, ?_⟩
    rw [← low, mazeIndex_sub]
    exact bit
  · refine right ⟨by omega, ?_⟩
    rw [mazeIndex_add, high]
    exact bit

/-- The lattice points are connected when walls do not count. -/
theorem Maze.Room.joined {maze : Maze} {x y : Nat} (room : maze.Room x y) :
    Joined Beside {point | maze.Room point.1 point.2} (1, 1) (x, y) := by
  obtain ⟨oddX, oddY, inside, below⟩ := room
  obtain ⟨a, rfl⟩ : ∃ a, x = 2 * a + 1 := ⟨x / 2, by omega⟩
  obtain ⟨b, rfl⟩ : ∃ b, y = 2 * b + 1 := ⟨y / 2, by omega⟩
  induction b with
  | zero =>
      induction a with
      | zero => exact .refl
      | succ a ih =>
          have before := ih (by omega) (by omega)
          exact before.tail ⟨.inr ⟨rfl, .inl rfl⟩, oddX, oddY, inside, below⟩
  | succ b ih =>
      have before := ih (by omega) (by omega)
      exact before.tail ⟨.inl ⟨rfl, .inl rfl⟩, oddX, oddY, inside, below⟩

/-- Some unmarked lattice point has a marked neighbour. -/
theorem Scanning.target {repair : Repair} (scanning : Scanning repair)
    (more : 0 < repair.remaining) :
    ∃ near far, Beside near far ∧ repair.maze.Room near.1 near.2 ∧
      repair.maze.Room far.1 far.2 ∧ repair.maze.get near.1 near.2 = mazeReach ∧
      repair.maze.get far.1 far.2 &&& mazeReach = 0 := by
  have some_left : repair.maze.count isUnmarked ≠ 0 := by
    have counted := scanning.marked.unmarked
    omega
  obtain ⟨x, y, room, kind⟩ := exists_of_count some_left
  have bit := of_decide_eq_true kind
  have marked : (1, 1) ∈ repair.maze.reached := (scanning.component (1, 1)).2 .refl
  have unmarked : (x, y) ∉ repair.maze.reached := fun reached => by
    rw [reached.2] at bit
    exact absurd bit (by decide)
  obtain ⟨near, far, ⟨beside, stop⟩, start, outside⟩ := exists_leaving room.joined marked unmarked
  refine ⟨near, far, beside, start.1, stop, start.2, ?_⟩
  by_contra bit
  exact outside ⟨stop, scanning.marked.get_of_marked stop bit⟩


/-- The number of a lattice point determines it. -/
theorem cursor_inj {maze : Maze} {x y u v : Nat} (room : maze.Room x y) (other : maze.Room u v)
    (same : y / 2 * maze.xDim + x / 2 = v / 2 * maze.xDim + u / 2) : x = u ∧ y = v := by
  obtain ⟨oddX, oddY, inside, _⟩ := room
  obtain ⟨oddU, oddV, inner, _⟩ := other
  have column (a b : Nat) (bound : a < maze.xDim) : (b * maze.xDim + a) % maze.xDim = a := by
    rw [Nat.add_comm, Nat.add_mul_mod_self_right, Nat.mod_eq_of_lt bound]
  have columns : x / 2 = u / 2 := by
    rw [← column (x / 2) (y / 2) (by omega), same, column _ _ (by omega)]
  rw [columns, Nat.add_right_cancel_iff] at same
  have rows := Nat.eq_of_mul_eq_mul_right (by omega) same
  omega

/-- A circle goes through each of its numbers. -/
theorem exists_offset (start : Nat) {target size : Nat} (inside : target < size) :
    ∃ offset < size, (start + offset) % size = target := by
  have bound := Nat.mod_lt start (Nat.zero_lt_of_lt inside)
  rw [← Nat.mod_eq_of_lt inside]
  by_cases before : start % size ≤ target
  · refine ⟨target - start % size, by omega, ?_⟩
    rw [← Nat.mod_add_mod, Nat.add_sub_of_le before]
  · refine ⟨target + size - start % size, by omega, ?_⟩
    rw [← Nat.mod_add_mod, Nat.add_sub_of_le (by omega), Nat.add_mod_right]

/-- The scan does not pass an unmarked point with a marked neighbour. -/
theorem Passes.elsewhere {before after : Repair} (passes : Passes before after)
    (room : after.maze.Room after.x after.y) {near far : Nat × Nat} (beside : Beside near far)
    (start : before.maze.Room near.1 near.2) (stop : before.maze.Room far.1 far.2)
    (marked : before.maze.get near.1 near.2 = mazeReach)
    (bit : before.maze.get far.1 far.2 &&& mazeReach = 0) :
    (before.cursor + 1) % (before.maze.xDim * before.maze.yDim) ≠
      far.2 / 2 * before.maze.xDim + far.1 / 2 := by
  obtain ⟨same, _, cursor, stuck⟩ := passes
  intro arrives
  rw [← cursor, Repair.cursor, same] at arrives
  rw [← same] at start stop marked bit
  obtain ⟨column, row⟩ := cursor_inj room (same ▸ stop) (same ▸ arrives)
  have breached := stuck (by rwa [column, row])
  have clear := Repair.breach_none room breached start (by rwa [column, row])
  rw [marked] at clear
  exact absurd clear (by decide)

theorem repairRounds_one (random : Nat → Nat) (fuel : Nat) (repair : Repair) :
    repairRounds random fuel 1 repair = repair.body random fuel := by
  rw [repairRounds]
  cases repair.body random fuel with
  | none => rfl
  | some next => exact ite_self _

theorem repairRounds_succ {random : Nat → Nat} {fuel rounds : Nat} {repair next : Repair}
    (first : repair.body random fuel = some next) (more : 0 < next.remaining) :
    repairRounds random fuel (rounds + 1) repair = repairRounds random fuel rounds next := by
  rw [repairRounds, first]
  exact if_pos more

/-- The scan advances at the latest at an unmarked point with a marked neighbour. -/
theorem Scanning.reaches {repair : Repair} (scanning : Scanning repair) (random : Nat → Nat)
    {fuel : Nat} (enough : repair.maze.xDim * repair.maze.yDim < fuel)
    (more : 0 < repair.remaining) {near far : Nat × Nat} (beside : Beside near far)
    (start : repair.maze.Room near.1 near.2) (stop : repair.maze.Room far.1 far.2)
    (marked : repair.maze.get near.1 near.2 = mazeReach)
    (bit : repair.maze.get far.1 far.2 &&& mazeReach = 0) {steps : Nat}
    (arrives : (repair.cursor + 1 + steps) % (repair.maze.xDim * repair.maze.yDim) =
      far.2 / 2 * repair.maze.xDim + far.1 / 2) :
    ∃ rounds ≤ steps + 1, ∃ after, repairRounds random fuel rounds repair = some after ∧
      Scanning after ∧ after.maze.xDim = repair.maze.xDim ∧ after.maze.yDim = repair.maze.yDim ∧
      Advances repair after := by
  obtain ⟨next, done, kept, columns, rows, progress⟩ := scanning.body random enough
  induction steps generalizing repair next with
  | zero =>
      rcases progress with advances | passes
      · exact ⟨1, le_rfl, next, by rw [repairRounds_one, done], kept, columns, rows, advances⟩
      · exact absurd arrives (passes.elsewhere kept.room beside start stop marked bit)
  | succ steps ih =>
      rcases progress with advances | ⟨same, left, cursor, _⟩
      · exact ⟨1, by omega, next, by rw [repairRounds_one, done], kept, columns, rows, advances⟩
      · obtain ⟨third, later, rest⟩ := kept.body random (by rwa [same])
        obtain ⟨rounds, bound, after, reached, last, columnsLast, rowsLast, removed, fewer⟩ :=
          ih kept (by rwa [same]) (by rwa [left]) (by rwa [same]) (by rwa [same]) (by rwa [same])
            (by rwa [same]) (by
              rw [cursor, same, Nat.add_assoc, Nat.mod_add_mod, ← arrives]
              congr 1
              omega) third later rest.scanning rest.xDim rest.yDim rest.progress
        rw [same] at columnsLast rowsLast removed
        rw [left] at fewer
        refine ⟨rounds + 1, by omega, after, ?_, last, columnsLast, rowsLast, removed, fewer⟩
        rw [repairRounds_succ done (by rwa [left]), reached]

/-- The scan advances within one circle through the lattice points. -/
theorem Scanning.advances {repair : Repair} (scanning : Scanning repair) (random : Nat → Nat)
    {fuel : Nat} (enough : repair.maze.xDim * repair.maze.yDim < fuel)
    (more : 0 < repair.remaining) :
    ∃ rounds ≤ repair.maze.xDim * repair.maze.yDim, ∃ after,
      repairRounds random fuel rounds repair = some after ∧
      Scanning after ∧ after.maze.xDim = repair.maze.xDim ∧ after.maze.yDim = repair.maze.yDim ∧
      Advances repair after := by
  obtain ⟨near, far, beside, start, stop, marked, bit⟩ := scanning.target more
  obtain ⟨offset, inside, arrives⟩ := exists_offset (repair.cursor + 1) (cursor_lt stop)
  obtain ⟨rounds, bound, result⟩ :=
    scanning.reaches random enough more beside start stop marked bit arrives
  exact ⟨rounds, by omega, result⟩

/-- The rounds after some first ones, which may have ended the loop. -/
theorem repairRounds_append {repair : Repair} (random : Nat → Nat) (fuel first rounds : Nat)
    (more : 0 < repair.remaining) : repairRounds random fuel (first + rounds) repair =
      (repairRounds random fuel first repair).bind fun next =>
        if 0 < next.remaining then repairRounds random fuel rounds next else some next := by
  induction first generalizing repair with
  | zero => simp [repairRounds, more]
  | succ first ih =>
      rw [Nat.add_right_comm, repairRounds, repairRounds]
      cases done : repair.body random fuel with
      | none => rfl
      | some next =>
          dsimp only
          by_cases left : 0 < next.remaining
          · rw [if_pos left, if_pos left]
            exact ih left
          · simp [left]

/-- The scan stays in force in all rounds. -/
theorem Scanning.rounds {repair : Repair} (scanning : Scanning repair) (random : Nat → Nat)
    {fuel : Nat} (enough : repair.maze.xDim * repair.maze.yDim < fuel) (rounds : Nat) :
    ∃ after, repairRounds random fuel rounds repair = some after ∧ Scanning after ∧
      after.maze.xDim = repair.maze.xDim ∧ after.maze.yDim = repair.maze.yDim := by
  induction rounds generalizing repair with
  | zero => exact ⟨repair, rfl, scanning, rfl, rfl⟩
  | succ rounds ih =>
      obtain ⟨next, done, kept, columns, rows, _⟩ := scanning.body random enough
      rw [repairRounds, done]
      dsimp only
      by_cases left : 0 < next.remaining
      · obtain ⟨after, reached, last, columnsLast, rowsLast⟩ := ih kept (by rwa [columns, rows])
        rw [if_pos left]
        exact ⟨after, reached, last, columnsLast.trans columns, rowsLast.trans rows⟩
      · rw [if_neg left]
        exact ⟨next, rfl, kept, columns, rows⟩

/-- Each circle of the scan connects at least one more lattice point. -/
theorem Scanning.ends {repair : Repair} (scanning : Scanning repair) (random : Nat → Nat)
    {fuel : Nat} (enough : repair.maze.xDim * repair.maze.yDim < fuel)
    (more : 0 < repair.remaining) {left : Nat} (bound : repair.remaining ≤ left) :
    ∃ done, repairRounds random fuel (repair.maze.xDim * repair.maze.yDim * left) repair =
        some done ∧ Scanning done ∧ done.maze.xDim = repair.maze.xDim ∧
      done.maze.yDim = repair.maze.yDim ∧ done.remaining ≤ 0 := by
  induction left generalizing repair with
  | zero => exact absurd more (not_lt.2 bound)
  | succ left ih =>
      obtain ⟨first, within, next, reached, kept, columns, rows, _, fewer⟩ :=
        scanning.advances random enough more
      obtain ⟨rest, total⟩ := Nat.exists_eq_add_of_le within
      have rounds : repair.maze.xDim * repair.maze.yDim * (left + 1) =
          first + (repair.maze.xDim * repair.maze.yDim * left + rest) := by
        rw [Nat.mul_add_one]
        omega
      by_cases again : 0 < next.remaining
      · obtain ⟨done, looped, last, columnsLast, rowsLast, finished⟩ :=
          ih kept (by rwa [columns, rows]) again (by push_cast at bound; omega)
        rw [columns, rows] at looped
        refine ⟨done, ?_, last, columnsLast.trans columns, rowsLast.trans rows, finished⟩
        rw [rounds, repairRounds_append random fuel _ _ more, reached, Option.bind_some,
          if_pos again, repairRounds_append random fuel _ _ again, looped, Option.bind_some,
          if_neg (not_lt.2 finished)]
      · refine ⟨next, ?_, kept, columns, rows, not_lt.1 again⟩
        rw [rounds, repairRounds_append random fuel _ _ more, reached, Option.bind_some,
          if_neg again]

/-- More fuel does not change the result of a search. -/
theorem searchLoop_mono {xDim fuel more : Nat} {search done : Search} (enough : fuel ≤ more)
    (looped : searchLoop xDim fuel search = some done) :
    searchLoop xDim more search = some done := by
  induction fuel generalizing more search with
  | zero => cases looped
  | succ fuel ih =>
      obtain ⟨more, rfl⟩ : ∃ less, more = less + 1 := ⟨more - 1, by omega⟩
      rw [searchLoop] at looped ⊢
      cases queue : search.queue with
      | nil => rwa [queue] at looped
      | cons cur rest =>
          rw [queue] at looped
          exact ih (by omega) looped

theorem pick_mono {random : Nat → Nat} {maze : Maze} {stop : UInt8 → Bool} {fuel more drawn : Nat}
    {point : Nat × Nat × Nat} (enough : fuel ≤ more)
    (picked : pick random maze stop fuel drawn = some point) :
    pick random maze stop more drawn = some point := by
  induction fuel generalizing more drawn with
  | zero => cases picked
  | succ fuel ih =>
      obtain ⟨more, rfl⟩ : ∃ less, more = less + 1 := ⟨more - 1, by omega⟩
      rw [pick] at picked ⊢
      split_ifs at picked ⊢ with stops
      · exact picked
      · exact ih (by omega) picked

namespace Repair

variable {repair after : Repair} {fuel more : Nat}

theorem connect_mono (enough : fuel ≤ more) (connected : repair.connect fuel = some after) :
    repair.connect more = some after := by
  rw [connect] at connected ⊢
  cases breached : repair.breach with
  | none => rwa [breached] at connected
  | some maze =>
      rw [breached] at connected
      obtain ⟨marked, searched, result⟩ := Option.map_eq_some_iff.1 connected
      obtain ⟨search, looped, found⟩ := Option.map_eq_some_iff.1 searched
      refine Option.map_eq_some_iff.2 ⟨marked, ?_, result⟩
      exact Option.map_eq_some_iff.2 ⟨search, searchLoop_mono enough looped, found⟩

theorem scan_mono (enough : fuel ≤ more) (scanned : repair.scan fuel = some after) :
    repair.scan more = some after := by
  rw [scan] at scanned ⊢
  split_ifs at scanned ⊢ with reached
  · exact scanned
  · exact connect_mono enough scanned

theorem attempt_mono {random : Nat → Nat} (enough : fuel ≤ more)
    (attempted : repair.attempt random fuel = some after) :
    repair.attempt random more = some after := by
  rw [attempt] at attempted ⊢
  cases picked : pick random repair.maze (fun cell => cell &&& mazeReach = 0) fuel
      repair.drawn with
  | none =>
      rw [picked] at attempted
      cases attempted
  | some point =>
      rw [picked] at attempted
      rw [pick_mono enough picked]
      exact connect_mono enough attempted

theorem body_mono {random : Nat → Nat} (enough : fuel ≤ more)
    (done : repair.body random fuel = some after) : repair.body random more = some after := by
  rw [body] at done ⊢
  dsimp only at done ⊢
  split_ifs at done ⊢ with few often
  · exact scan_mono enough done
  · exact scan_mono enough done
  · exact attempt_mono enough done

end Repair

/-- The loop does what its rounds do. -/
theorem repairLoop_of_rounds {random : Nat → Nat} {fuel rounds : Nat} {repair done : Repair}
    (reached : repairRounds random fuel rounds repair = some done) (finished : done.remaining ≤ 0)
    (more : 0 < repair.remaining) : repairLoop random (rounds + fuel) repair = some done := by
  induction rounds generalizing repair with
  | zero =>
      cases reached
      exact absurd more (not_lt.2 finished)
  | succ rounds ih =>
      rw [Nat.add_right_comm, repairLoop]
      rw [repairRounds] at reached
      cases first : repair.body random fuel with
      | none =>
          rw [first] at reached
          cases reached
      | some next =>
          rw [first] at reached
          rw [Repair.body_mono (Nat.le_add_left fuel rounds) first]
          dsimp only at reached ⊢
          by_cases left : 0 < next.remaining
          · rw [if_pos left] at reached ⊢
            exact ih reached left
          · rwa [if_neg left] at reached ⊢

/-- Once the scan is in force it stays so at a lattice point, a wall is removed and points are
connected within one circle, and the loop ends with all points marked when there was a circle for
each of them. -/
theorem repairScan_finishes {random : Nat → Nat} {fuel : Nat} {repair : Repair}
    (scanning : Scanning repair) (more : 0 < repair.remaining)
    (enough : repair.maze.xDim * repair.maze.yDim < fuel) :
    (∀ rounds, ∃ after, repairRounds random fuel rounds repair = some after ∧ Scanning after) ∧
      (∃ rounds ≤ repair.maze.xDim * repair.maze.yDim, ∃ after,
        repairRounds random fuel rounds repair = some after ∧ Advances repair after) ∧
      ∃ done, repairRounds random fuel
          (repair.maze.xDim * repair.maze.yDim * repair.remaining.toNat) repair = some done ∧
        repairLoop random (repair.maze.xDim * repair.maze.yDim * repair.remaining.toNat + fuel)
          repair = some done ∧
        done.remaining ≤ 0 ∧ ∀ x y, done.maze.Room x y → done.maze.get x y = mazeReach := by
  refine ⟨fun rounds => ?_, ?_, ?_⟩
  · obtain ⟨after, reached, kept, _⟩ := scanning.rounds random enough rounds
    exact ⟨after, reached, kept⟩
  · obtain ⟨rounds, bound, after, reached, _, _, _, advances⟩ :=
      scanning.advances random enough more
    exact ⟨rounds, bound, after, reached, advances⟩
  · obtain ⟨done, looped, last, _, _, finished⟩ :=
      scanning.ends random enough more repair.remaining.self_le_toNat
    refine ⟨done, looped, repairLoop_of_rounds looped finished more, finished, fun x y room => ?_⟩
    have none_left : done.maze.count isUnmarked = 0 := by
      have counted := last.marked.unmarked
      omega
    exact last.marked.get_of_marked room (of_decide_eq_false (none_of_count none_left room))

/-- The smallest maze with no way at all and a mark on (1,1) only. -/
def islands : Maze :=
  { smallest with
    cells := fun place =>
      if place % 2 = 1 ∧ place / 28 % 2 = 0 ∧ place < 476 then
        if place = 57 then mazeReach else mazeNone
      else mazeWall }

theorem islands_get {x : Nat} (y : Nat) (inside : x < 28) : islands.get x y =
    if x % 2 = 1 ∧ y % 2 = 1 ∧ y < 16 then
      if x = 1 ∧ y = 1 then mazeReach else mazeNone
    else mazeWall := by
  have place : islands.mazeIndex x y = x + 28 * (y + 1) := by
    change x + (y + 1) * 14 * 2 = _
    omega
  rw [Maze.get, place, islands]
  dsimp only
  refine if_congr (by omega) (if_congr (by omega) rfl rfl) rfl

theorem islands_dug : islands.Dug where
  solid x y solid := by
    rw [islands_get y solid.1, if_neg]
    have place : x = 0 ∨ y = 0 ∨ 16 ≤ y ∨ (x % 2 = 0 ∧ y % 2 = 0) := solid.2
    omega
  door x y inside parity := by
    rw [islands_get y inside, if_neg (by omega)]
    exact .inl rfl
  room x y room := by
    rw [islands_get y room.2.2.1]
    split_ifs
    · exact .inr (.inr rfl)
    · exact .inr (.inl rfl)
    · exact .inl rfl
  across x y start stop opened := by
    have inside : x + 2 < 28 := stop.2.2.1
    have odd := start.2.1
    have row := start.1
    rw [islands_get y (by omega), if_neg (by omega)] at opened
    exact absurd opened (by decide)
  down x y start _ opened := by
    have odd := start.2.1
    rw [islands_get (y + 1) start.2.2.1, if_neg (by omega)] at opened
    exact absurd opened (by decide)

/-- The scan begins with all other lattice points left. -/
def marooned : Repair := ⟨islands, 111, 100, 27, 15, 0⟩

theorem islands_apart {point next : Nat × Nat} : ¬ islands.Passage point next := by
  have closed (x y : Nat) (inside : x < 28) (parity : x % 2 ≠ y % 2) : ¬ islands.Open x y := by
    rw [Open, islands_get y inside, if_neg (by omega)]
    decide
  intro passage
  cases passage with
  | up start _ way =>
      have odd := start.1
      have row := start.2.1
      exact closed _ _ start.2.2.1 (by omega) way
  | @right x y start stop way =>
      have inside : x + 2 < 28 := stop.2.2.1
      have odd := start.1
      have row := start.2.1
      exact closed _ _ (by omega) (by omega) way
  | down start _ way =>
      have odd := start.1
      have row := start.2.1
      exact closed _ _ start.2.2.1 (by omega) way
  | @left x y start stop way =>
      have inside : x + 2 < 28 := start.2.2.1
      have odd := stop.1
      have row := stop.2.1
      exact closed _ _ (by omega) (by omega) way

theorem marooned_scanning : Scanning marooned where
  marked :=
    { dug := islands_dug
      clear x y room := by
        have inside : x < 28 := room.2.2.1
        have below : y < 16 := room.2.2.2
        change islands.get x y = mazeNone ∨ islands.get x y = mazeReach
        rw [islands_get y inside, if_pos ⟨room.1, room.2.1, below⟩]
        split_ifs
        · exact .inr rfl
        · exact .inl rfl
      reachable x y room cell := by
        change islands.get x y = mazeReach at cell
        rw [islands_get y room.2.2.1] at cell
        split_ifs at cell with odd first
        · rw [first.1, first.2]
          exact .refl
        · exact absurd cell (by decide)
        · exact absurd cell (by decide)
      unmarked := show (111 : Int) = islands.count isUnmarked by decide +kernel }
  room := ⟨rfl, rfl, by decide, by decide⟩
  complete x y _ path := by
    rcases path.cases_tail with same | ⟨_, _, passage⟩
    · cases same
      rfl
    · exact absurd passage islands_apart
  inForce := .inr le_rfl

theorem repairScan_finishes_marooned : ∃ done, repairLoop snake (112 * 111 + 113) marooned =
    some done ∧ ∀ x y, done.maze.Room x y → done.maze.get x y = mazeReach := by
  obtain ⟨_, _, done, _, looped, _, marked⟩ :=
    @repairScan_finishes snake 113 marooned marooned_scanning (by decide) (by decide)
  exact ⟨done, looped, marked⟩

end ComputerSystems.Mp2
