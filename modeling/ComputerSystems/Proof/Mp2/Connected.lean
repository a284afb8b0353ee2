import ComputerSystems.Proof.Mp2.MazeSearch
import ComputerSystems.Proof.Mp2.WormPhase

namespace ComputerSystems.Mp2

open Maze

/-- The repair is at a lattice point of a marked maze. -/
structure Repairing (repair : Repair) : Prop where
  marked : repair.maze.Marked repair.remaining
  room : repair.maze.Room repair.x repair.y

/-- A way that opens next to a marked lattice point reaches the point behind it. -/
theorem Maze.Marked.breach {maze : Maze} {unmarked : Int} (marked : maze.Marked unmarked)
    {x y u v doorX doorY : Nat} (here : maze.Room x y) (there : maze.Room u v)
    (cell : maze.get u v = mazeReach) (inside : doorX < 2 * maze.xDim)
    (parity : doorX % 2 ≠ doorY % 2) (dug : (maze.put doorX doorY mazeNone).Dug)
    (passage : (maze.put doorX doorY mazeNone).Open doorX doorY →
      (maze.put doorX doorY mazeNone).Passage (u, v) (x, y)) :
    (maze.put doorX doorY mazeNone).Marked unmarked ∧
      (maze.put doorX doorY mazeNone).Reachable x y ∧
      (maze.put doorX doorY mazeNone).get x y = maze.get x y := by
  obtain ⟨kept, grows⟩ := marked.put_door inside parity dug
  have way : (maze.put doorX doorY mazeNone).Open doorX doorY := by
    rw [Open, get_put_self]
    decide
  refine ⟨kept, (grows u v (marked.reachable u v there cell)).tail (passage way), ?_⟩
  refine get_put_of_ne inside here.2.2.1 fun same => parity ?_
  rw [← same.1, ← same.2, here.1, here.2.1]

/-- A door is the only cell between a marked lattice point and the point of the repair. -/
structure Breach (repair : Repair) (u v doorX doorY : Nat) : Prop where
  near : repair.maze.Room u v
  cell : repair.maze.get u v = mazeReach
  inside : doorX < 2 * repair.maze.xDim
  parity : doorX % 2 ≠ doorY % 2
  middleX : u + repair.x = 2 * doorX
  middleY : v + repair.y = 2 * doorY
  dug : (repair.maze.put doorX doorY mazeNone).Dug
  passage : ∀ cells, ({ repair.maze with cells := cells } : Maze).Open doorX doorY →
    ({ repair.maze with cells := cells } : Maze).Passage (u, v) (repair.x, repair.y)

/-- A breach opens the door from a marked neighbour. -/
theorem Repairing.opens {repair : Repair} (repairing : Repairing repair) {maze : Maze}
    (breached : repair.breach = some maze) :
    ∃ u v doorX doorY, Breach repair u v doorX doorY ∧
      maze = repair.maze.put doorX doorY mazeNone := by
  obtain ⟨marked, room⟩ := repairing
  have here := marked.ne_wall room
  obtain ⟨oddX, oddY, inside, below⟩ := id room
  rw [Repair.breach] at breached
  dsimp only at breached
  split_ifs at breached with up left right down
  · obtain ⟨bound, reached⟩ := up
    obtain ⟨y, shape⟩ : ∃ y, repair.y = y + 2 := ⟨repair.y - 2, by omega⟩
    rw [shape] at breached reached room here
    have next : repair.maze.Room repair.x y := ⟨oddX, by omega, inside, by omega⟩
    rw [mazeIndex_above_two] at reached
    rw [mazeIndex_above _ (y + 1)] at breached
    refine ⟨repair.x, y, repair.x, y + 1, ⟨next, marked.get_of_marked next reached, inside,
      by omega, by omega, by omega, marked.dug.put_down next room (marked.ne_wall next) here,
      fun cells way => ?_⟩, (Option.some.inj breached).symm⟩
    rw [shape]
    exact .down next room way
  · obtain ⟨bound, reached⟩ := left
    obtain ⟨x, shape⟩ : ∃ x, repair.x = x + 2 := ⟨repair.x - 2, by omega⟩
    rw [shape] at breached reached room here
    have next : repair.maze.Room x repair.y := ⟨by omega, oddY, by omega, below⟩
    rw [mazeIndex_sub] at reached
    rw [mazeIndex_sub (x + 1) _ 1] at breached
    refine ⟨x, repair.y, x + 1, repair.y, ⟨next, marked.get_of_marked next reached, by omega,
      by omega, by omega, by omega, marked.dug.put_across next room (marked.ne_wall next) here,
      fun cells way => ?_⟩, (Option.some.inj breached).symm⟩
    rw [shape]
    exact .right next room way
  · obtain ⟨bound, reached⟩ := right
    have next : repair.maze.Room (repair.x + 2) repair.y := ⟨by omega, oddY, by omega, below⟩
    rw [mazeIndex_add] at reached
    rw [mazeIndex_add] at breached
    exact ⟨repair.x + 2, repair.y, repair.x + 1, repair.y, ⟨next,
      marked.get_of_marked next reached, by omega, by omega, by omega, by omega,
      marked.dug.put_across room next here (marked.ne_wall next),
      fun cells way => .left next room way⟩, (Option.some.inj breached).symm⟩
  · obtain ⟨bound, reached⟩ := down
    have next : repair.maze.Room repair.x (repair.y + 2) := ⟨oddX, by omega, inside, by omega⟩
    rw [mazeIndex_below_two] at reached
    rw [mazeIndex_below] at breached
    exact ⟨repair.x, repair.y + 2, repair.x, repair.y + 1, ⟨next,
      marked.get_of_marked next reached, inside, by omega, by omega, by omega,
      marked.dug.put_down room next here (marked.ne_wall next),
      fun cells way => .up next room way⟩, (Option.some.inj breached).symm⟩

/-- After a breach the point of the repair is reachable. -/
theorem Repairing.breach {repair : Repair} (repairing : Repairing repair) {maze : Maze}
    (breached : repair.breach = some maze) :
    maze.Marked repair.remaining ∧ maze.Reachable repair.x repair.y ∧
      maze.get repair.x repair.y = repair.maze.get repair.x repair.y ∧
      maze.xDim = repair.maze.xDim ∧ maze.yDim = repair.maze.yDim := by
  obtain ⟨u, v, doorX, doorY, door, rfl⟩ := repairing.opens breached
  obtain ⟨kept, reachable, same⟩ := repairing.marked.breach repairing.room door.near door.cell
    door.inside door.parity door.dug (door.passage _)
  exact ⟨kept, reachable, same, rfl, rfl⟩

/-- The repair goes on in a maze of the same size. -/
def Continues (before after : Repair) : Prop :=
  Repairing after ∧ after.maze.xDim = before.maze.xDim ∧ after.maze.yDim = before.maze.yDim

/-- The connection of an unmarked point marks its portion of the maze. -/
theorem Repairing.connect {repair after : Repair} (repairing : Repairing repair) {fuel : Nat}
    (bit : repair.maze.get repair.x repair.y &&& mazeReach = 0)
    (connected : repair.connect fuel = some after) : Continues repair after := by
  rw [Repair.connect] at connected
  cases breached : repair.breach with
  | none =>
      rw [breached] at connected
      cases connected
      exact ⟨repairing, rfl, rfl⟩
  | some maze =>
      rw [breached] at connected
      obtain ⟨marked, searched, result⟩ := Option.map_eq_some_iff.1 connected
      cases result
      obtain ⟨open_, reachable, same, columns, rows⟩ := repairing.breach breached
      have room : maze.Room repair.x repair.y := by
        rw [Room, columns, rows]
        exact repairing.room
      obtain ⟨kept, columnsKept, rowsKept⟩ :=
        open_.markMazeArea room (by rwa [same]) reachable searched
      refine ⟨⟨kept, ?_⟩, columnsKept.trans columns, rowsKept.trans rows⟩
      rw [Room, columnsKept, rowsKept]
      exact room

theorem Repairing.advance {repair : Repair} (repairing : Repairing repair) :
    Repairing repair.advance ∧ repair.advance.maze = repair.maze := by
  obtain ⟨marked, oddX, oddY, inside, below⟩ := repairing
  rw [Repair.advance]
  split_ifs with wide high
  · exact ⟨⟨marked, by dsimp only; omega, by dsimp only; omega, by dsimp only; omega,
      by dsimp only; omega⟩, rfl⟩
  · exact ⟨⟨marked, by dsimp only; omega, by dsimp only; omega, by dsimp only; omega,
      by dsimp only; omega⟩, rfl⟩
  · exact ⟨⟨marked, by dsimp only; omega, oddY, by dsimp only; omega, below⟩, rfl⟩

theorem Repairing.scan {repair after : Repair} (repairing : Repairing repair) {fuel : Nat}
    (scanned : repair.scan fuel = some after) : Continues repair after := by
  obtain ⟨next, same⟩ := repairing.advance
  rw [Repair.scan] at scanned
  by_cases bit : repair.advance.maze.get repair.advance.x repair.advance.y &&& mazeReach ≠ 0
  · rw [if_pos bit] at scanned
    cases scanned
    exact ⟨next, by rw [same], by rw [same]⟩
  · rw [if_neg bit] at scanned
    have connected := next.connect (not_not.1 bit) scanned
    rwa [Continues, same] at connected

/-- One round of the repair. -/
theorem Repairing.body {repair after : Repair} (repairing : Repairing repair)
    (wide : 0 < repair.maze.xDim) (high : 0 < repair.maze.yDim) {random : Nat → Nat} {fuel : Nat}
    (done : repair.body random fuel = some after) : Continues repair after := by
  rw [Repair.body] at done
  dsimp only at done
  split_ifs at done
  · exact repairing.scan done
  · have counted : Repairing { repair with trials := repair.trials + 1 } :=
      ⟨repairing.marked, repairing.room⟩
    exact counted.scan done
  · rw [Repair.attempt] at done
    cases picked : pick random repair.maze (fun cell => cell &&& mazeReach = 0) fuel
        repair.drawn with
    | none =>
        rw [picked] at done
        cases done
    | some point =>
        obtain ⟨x, y, drawn⟩ := point
        rw [picked] at done
        obtain ⟨room, bit⟩ := pick_spec wide high picked
        have there : Repairing
            { repair with trials := repair.trials + 1, x := x, y := y, drawn := drawn } :=
          ⟨repairing.marked, room⟩
        exact there.connect (of_decide_eq_true bit) done

/-- The repair ends when every lattice point is marked. -/
theorem repairLoop_marked {random : Nat → Nat} {fuel : Nat} {repair done : Repair}
    (wide : 0 < repair.maze.xDim) (high : 0 < repair.maze.yDim) (repairing : Repairing repair)
    (looped : repairLoop random fuel repair = some done) :
    Continues repair done ∧ done.remaining ≤ 0 := by
  induction fuel generalizing repair with
  | zero => cases looped
  | succ fuel ih =>
      rw [repairLoop] at looped
      cases round : repair.body random fuel with
      | none =>
          rw [round] at looped
          cases looped
      | some next =>
          rw [round] at looped
          dsimp only at looped
          obtain ⟨kept, columns, rows⟩ := repairing.body wide high round
          by_cases more : 0 < next.remaining
          · rw [if_pos more] at looped
            obtain ⟨⟨sound, columnsKept, rowsKept⟩, finished⟩ :=
              ih (by rwa [columns]) (by rwa [rows]) kept looped
            exact ⟨⟨sound, columnsKept.trans columns, rowsKept.trans rows⟩, finished⟩
          · rw [if_neg more] at looped
            cases looped
            exact ⟨⟨kept, columns, rows⟩, not_lt.1 more⟩

/-- What the generation promises of the maze before the removal of the marks. Coordinates go up to
the right and the lower boundary. -/
structure Connected (maze : Maze) : Prop where
  rooms : ∀ x y, maze.Room x y → maze.Open x y
  pillars : ∀ x y, x ≤ 2 * maze.xDim → y ≤ 2 * maze.yDim → x % 2 = 0 → y % 2 = 0 →
    ¬ maze.Open x y
  boundary : ∀ x y, x ≤ 2 * maze.xDim → y ≤ 2 * maze.yDim →
    (x = 0 ∨ y = 0 ∨ x = 2 * maze.xDim ∨ y = 2 * maze.yDim) → ¬ maze.Open x y
  across : ∀ x y, x ≤ 2 * maze.xDim → y ≤ 2 * maze.yDim → x % 2 = 0 → y % 2 = 1 →
    maze.Open x y → 0 < x ∧ maze.Room (x - 1) y ∧ maze.Open (x - 1) y ∧
      maze.Room (x + 1) y ∧ maze.Open (x + 1) y
  down : ∀ x y, x ≤ 2 * maze.xDim → y ≤ 2 * maze.yDim → x % 2 = 1 → y % 2 = 0 →
    maze.Open x y → 0 < y ∧ maze.Room x (y - 1) ∧ maze.Open x (y - 1) ∧
      maze.Room x (y + 1) ∧ maze.Open x (y + 1)
  reachable : ∀ x y, maze.Room x y → maze.Reachable x y

/-- A marked maze without unmarked lattice points is connected. -/
theorem Maze.Marked.connected {maze : Maze} {unmarked : Int} (marked : maze.Marked unmarked)
    (wide : 0 < maze.xDim) (finished : unmarked ≤ 0) : Connected maze := by
  have none_left : maze.count isUnmarked = 0 := by
    have counted := marked.unmarked
    omega
  have rooms (x y : Nat) (room : maze.Room x y) : maze.Open x y := by
    rcases marked.clear x y room with cell | cell <;> rw [Open, cell] <;> decide
  have walled := marked.dug.walled wide
  refine ⟨rooms, fun x y inside below evenX evenY => ?_, walled, ?_, ?_, ?_⟩
  · by_cases right : x = 2 * maze.xDim
    · exact walled x y inside below (.inr (.inr (.inl right)))
    · exact marked.dug.not_open ⟨by omega, .inr (.inr (.inr ⟨evenX, evenY⟩))⟩
  · intro x y inside below even odd way
    have inner : ¬ (x = 0 ∨ y = 0 ∨ x = 2 * maze.xDim ∨ y = 2 * maze.yDim) := fun edge =>
      walled x y inside below edge way
    have left : maze.Room (x - 1) y := ⟨by omega, odd, by omega, by omega⟩
    have right : maze.Room (x + 1) y := ⟨by omega, odd, by omega, by omega⟩
    exact ⟨by omega, left, rooms _ _ left, right, rooms _ _ right⟩
  · intro x y inside below odd even way
    have inner : ¬ (x = 0 ∨ y = 0 ∨ x = 2 * maze.xDim ∨ y = 2 * maze.yDim) := fun edge =>
      walled x y inside below edge way
    have up : maze.Room x (y - 1) := ⟨odd, by omega, by omega, by omega⟩
    have low : maze.Room x (y + 1) := ⟨odd, by omega, by omega, by omega⟩
    exact ⟨by omega, up, rooms _ _ up, low, rooms _ _ low⟩
  · intro x y room
    have bit := none_of_count none_left room
    exact marked.reachable x y room
      (marked.get_of_marked room (of_decide_eq_false bit))

theorem Sound.filled (maze : Maze) :
    Sound { maze with cells := fun _ => mazeWall } (maze.xDim * maze.yDim : Nat) where
  dug := Dug.filled maze
  fresh _ _ _ := show mazeWall ≠ mazeReach by decide
  remaining := by
    have all : ∀ x y, ({ maze with cells := fun _ => mazeWall } : Maze).Room x y →
        isWall (({ maze with cells := fun _ => mazeWall } : Maze).get x y) = true :=
      fun _ _ _ => rfl
    rw [count_of_all all]

/-- The worms leave open lattice points without marks. -/
theorem Sound.clear {maze : Maze} {remaining : Int} (sound : Sound maze remaining)
    (finished : remaining ≤ 0) {x y : Nat} (room : maze.Room x y) : maze.get x y = mazeNone := by
  have none_left : maze.count isWall = 0 := by
    have counted := sound.remaining
    omega
  have wall := of_decide_eq_false (none_of_count none_left room)
  exact ((sound.dug.room x y room).resolve_left wall).resolve_right (sound.fresh x y room)

theorem Sound.marked {maze : Maze} {remaining : Int} (sound : Sound maze remaining)
    (finished : remaining ≤ 0) : maze.Marked (maze.xDim * maze.yDim : Nat) where
  dug := sound.dug
  clear _ _ room := .inl (sound.clear finished room)
  reachable x y room cell := absurd cell (sound.fresh x y room)
  unmarked := by
    have all : ∀ x y, maze.Room x y → isUnmarked (maze.get x y) = true := fun x y room => by
      rw [sound.clear finished room]
      rfl
    rw [count_of_all all]

/-- The generation reaches the removal of the marks with every lattice point marked. -/
theorem digMaze_marked {fuel : Nat} {random : Nat → Nat} {before after : Maze} {drawn : Nat}
    (wide : 2 ≤ before.xDim) (high : 2 ≤ before.yDim)
    (dug : digMaze fuel random before = some (after, drawn)) :
    (∃ unmarked ≤ 0, after.Marked unmarked) ∧
      after.xDim = before.xDim ∧ after.yDim = before.yDim := by
  rw [digMaze] at dug
  generalize start_eq : (Worm.mk { before with cells := fun _ => mazeWall }
    (before.xDim * before.yDim : Nat) 0 0 0 0) = start at dug
  have startColumns : start.maze.xDim = before.xDim := by rw [← start_eq]
  have startRows : start.maze.yDim = before.yDim := by rw [← start_eq]
  have sound : Sound start.maze start.remaining := by
    subst start_eq
    exact Sound.filled before
  cases phased : wormPhase random fuel start with
  | none =>
      rw [phased] at dug
      cases dug
  | some worm =>
      obtain ⟨placed, finished, wormColumns, wormRows⟩ :=
        wormPhase_clear (by omega) (by omega) sound phased
      rw [phased] at dug
      dsimp only at dug
      have marked := placed.sound.marked finished
      have one : worm.maze.Room 1 1 := ⟨rfl, rfl, by omega, by omega⟩
      cases searched : markMazeArea fuel worm.maze 1 1 with
      | none =>
          rw [searched] at dug
          cases dug
      | some result =>
          obtain ⟨maze, count⟩ := result
          rw [searched] at dug
          obtain ⟨repair, looped, final⟩ := Option.map_eq_some_iff.1 dug
          cases final
          have clear : worm.maze.get 1 1 &&& mazeReach = 0 := by
            rw [placed.sound.clear finished one]
            decide
          obtain ⟨kept, mazeColumns, mazeRows⟩ :=
            marked.markMazeArea one clear .refl searched
          have repairing : Repairing ⟨maze, (before.xDim * before.yDim : Nat) - count, 0, worm.x,
              worm.y, worm.drawn⟩ := by
            refine ⟨?_, ?_⟩
            · rw [wormColumns, wormRows, startColumns, startRows] at kept
              exact kept
            · rw [Room, mazeColumns, mazeRows]
              exact placed.room
          obtain ⟨⟨sealed, lastColumns, lastRows⟩, complete⟩ :=
            repairLoop_marked (by dsimp only; omega) (by dsimp only; omega) repairing looped
          dsimp only at lastColumns lastRows
          exact ⟨⟨_, complete, sealed.marked⟩, by omega, by omega⟩

/-- Every maze that the generation reaches the removal of the marks with is connected. -/
theorem digMaze_connected {fuel : Nat} {random : Nat → Nat} {before after : Maze} {drawn : Nat}
    (columns : mazeMinXDim ≤ before.xDim ∧ before.xDim ≤ mazeMaxXDim)
    (rows : mazeMinYDim ≤ before.yDim ∧ before.yDim ≤ mazeMaxYDim)
    (dug : digMaze fuel random before = some (after, drawn)) :
    Connected after ∧ after.xDim = before.xDim ∧ after.yDim = before.yDim := by
  have wide : 2 ≤ before.xDim := le_trans (by decide) columns.1
  have high : 2 ≤ before.yDim := le_trans (by decide) rows.1
  obtain ⟨⟨_, complete, marked⟩, lastColumns, lastRows⟩ := digMaze_marked wide high dug
  exact ⟨marked.connected (by omega) complete, lastColumns, lastRows⟩

/-- Random numbers that lead one worm through the rows of the smallest maze in turn. -/
def snake (drawn : Nat) : Nat :=
  if drawn < 2 then 0 else if drawn = 2 then 1 else if (drawn - 3) / 14 % 2 = 0 then 3 else 87

theorem digMaze_connected_snake :
    ∃ after drawn, digMaze 200 snake smallest = some (after, drawn) ∧ Connected after := by
  have finishes : (digMaze 200 snake smallest).isSome = true := by decide +kernel
  obtain ⟨⟨after, drawn⟩, dug⟩ := Option.isSome_iff_exists.1 finishes
  exact ⟨after, drawn, dug, (digMaze_connected ⟨by decide, by decide⟩ ⟨by decide, by decide⟩ dug).1⟩

end ComputerSystems.Mp2
