import ComputerSystems.Proof.Mp2.AreaSearch

namespace ComputerSystems.Mp2

namespace Maze

/-- The lattice points with a path from (1,1). -/
def Reachable (maze : Maze) (x y : Nat) : Prop :=
  Relation.ReflTransGen maze.Passage (1, 1) (x, y)

variable {maze : Maze}

/-- More open spaces reach more lattice points. -/
theorem Reachable.mono {other : Maze} {x y : Nat} (reachable : maze.Reachable x y)
    (xDim : other.xDim = maze.xDim) (yDim : other.yDim = maze.yDim)
    (opens : ∀ x y, x < 2 * maze.xDim → x % 2 ≠ y % 2 → maze.Open x y → other.Open x y) :
    other.Reachable x y := by
  exact Relation.ReflTransGen.mono (fun _ _ passage => passage.mono xDim yDim opens) _ _ reachable

/-- A lattice point that the search has not marked. -/
def isUnmarked (cell : UInt8) : Bool := cell &&& mazeReach = 0

/-- The lattice points are open, and the marked ones are reachable from (1,1). -/
structure Marked (maze : Maze) (unmarked : Int) : Prop where
  dug : maze.Dug
  clear : ∀ x y, maze.Room x y → maze.get x y = mazeNone ∨ maze.get x y = mazeReach
  reachable : ∀ x y, maze.Room x y → maze.get x y = mazeReach → maze.Reachable x y
  unmarked : unmarked = maze.count isUnmarked

namespace Marked

variable {unmarked : Int}

theorem ne_wall (marked : maze.Marked unmarked) {x y : Nat} (room : maze.Room x y) :
    maze.get x y ≠ mazeWall := by
  rcases marked.clear x y room with cell | cell <;> rw [cell] <;> decide

theorem get_of_unmarked (marked : maze.Marked unmarked) {x y : Nat} (room : maze.Room x y)
    (bit : maze.get x y &&& mazeReach = 0) : maze.get x y = mazeNone := by
  rcases marked.clear x y room with cell | cell
  · exact cell
  · rw [cell] at bit
    exact absurd bit (by decide)

theorem get_of_marked (marked : maze.Marked unmarked) {x y : Nat} (room : maze.Room x y)
    (bit : maze.get x y &&& mazeReach ≠ 0) : maze.get x y = mazeReach := by
  rcases marked.clear x y room with cell | cell
  · rw [cell] at bit
    exact absurd (by decide) bit
  · exact cell

/-- The mark of a lattice point leaves all ways open. -/
theorem reachable_put {x y u v : Nat} {value : UInt8} (room : maze.Room x y)
    (reachable : maze.Reachable u v) : (maze.put x y value).Reachable u v := by
  refine reachable.mono rfl rfl fun a b inside parity way => ?_
  rw [Open, get_put_of_ne room.2.2.1 inside fun same => parity (by
    rw [same.1, same.2, room.1, room.2.1])]
  exact way

/-- A reachable lattice point may be marked. -/
theorem put (marked : maze.Marked unmarked) {x y : Nat} (room : maze.Room x y)
    (bit : maze.get x y &&& mazeReach = 0) (reachable : maze.Reachable x y) :
    (maze.put x y mazeReach).Marked (unmarked - 1) where
  dug := marked.dug.put_room room (.inr rfl)
  clear u v other := by
    by_cases same : u = x ∧ v = y
    · rw [same.1, same.2, get_put_self]
      exact .inr rfl
    · rw [get_put_of_ne room.2.2.1 other.2.2.1 same]
      exact marked.clear u v other
  reachable u v other cell := by
    by_cases same : u = x ∧ v = y
    · rw [same.1, same.2]
      exact reachable_put room reachable
    · rw [get_put_of_ne room.2.2.1 other.2.2.1 same] at cell
      exact reachable_put room (marked.reachable u v other cell)
  unmarked := by
    have count : (maze.put x y mazeReach).count isUnmarked + 1 = maze.count isUnmarked :=
      count_put room (decide_eq_true bit) rfl
    rw [marked.unmarked]
    omega

/-- A new way leaves the marks and reaches at least the same lattice points. -/
theorem put_door (marked : maze.Marked unmarked) {x y : Nat} (inside : x < 2 * maze.xDim)
    (parity : x % 2 ≠ y % 2) (dug : (maze.put x y mazeNone).Dug) :
    (maze.put x y mazeNone).Marked unmarked ∧
      ∀ u v, maze.Reachable u v → (maze.put x y mazeNone).Reachable u v := by
  have kept (u v : Nat) (room : maze.Room u v) :
      (maze.put x y mazeNone).get u v = maze.get u v :=
    get_put_of_ne inside room.2.2.1 fun same => parity (by
      rw [← same.1, ← same.2, room.1, room.2.1])
  have grows (u v : Nat) (reachable : maze.Reachable u v) :
      (maze.put x y mazeNone).Reachable u v := by
    refine reachable.mono rfl rfl fun a b within _ way => ?_
    by_cases same : a = x ∧ b = y
    · rw [Open, same.1, same.2, get_put_self]
      decide
    · rw [Open, get_put_of_ne inside within same]
      exact way
  refine ⟨⟨dug, fun u v room => ?_, fun u v room cell => ?_, ?_⟩, grows⟩
  · rw [kept u v room]
    exact marked.clear u v room
  · rw [kept u v room] at cell
    exact grows u v (marked.reachable u v room cell)
  · rw [count_put_door inside parity, marked.unmarked]

end Marked

/-- Marks leave all ways open. -/
theorem mark_open (points : List (Nat × Nat)) (x y : Nat) :
    (maze.mark points).Open x y ↔ maze.Open x y := by
  rw [Open, Open, get, mark_wall]
  rfl

namespace Marked

variable {unmarked : Int}

/-- Some reachable lattice points may be marked. -/
theorem mark (marked : maze.Marked unmarked) {points : List (Nat × Nat)} (distinct : points.Nodup)
    (found : ∀ point ∈ points, maze.Room point.1 point.2 ∧ point ∈ maze.fresh ∧
      maze.Reachable point.1 point.2) :
    (maze.mark points).Marked (unmarked - points.length) := by
  induction points using List.reverseRecOn with
  | nil => simpa [Maze.mark] using marked
  | append_singleton points point ih =>
      obtain ⟨before, _, apart⟩ := List.nodup_append.1 distinct
      have inner (other : Nat × Nat) (member : other ∈ points) :=
        found other (List.mem_append_left _ member)
      obtain ⟨room, clear, reachable⟩ := found point (List.mem_append_right _ List.mem_cons_self)
      have absent : point ∉ points := fun member =>
        apart point member point List.mem_cons_self rfl
      have earlier := ih before inner
      have bit : (maze.mark points).get point.1 point.2 &&& mazeReach = 0 :=
        (mark_reach (fun other member => (inner other member).1) room).2 ⟨clear, absent⟩
      have path : (maze.mark points).Reachable point.1 point.2 :=
        reachable.mono rfl rfl fun x y _ _ way => (mark_open points x y).2 way
      have cell : (maze.mark points).get point.1 point.2 ||| mazeReach = mazeReach := by
        rw [earlier.get_of_unmarked room bit]
        decide
      have last : maze.mark (points ++ [point]) =
          (maze.mark points).put point.1 point.2 mazeReach := by
        rw [mark_concat, cell]
        rw [List.mem_map]
        rintro ⟨other, member, same⟩
        exact absent ((index_inj (inner other member).1 room).1 same ▸ member)
      have total : unmarked - (points ++ [point]).length = unmarked - points.length - 1 := by
        rw [List.length_append, List.length_singleton]
        push_cast
        ring
      rw [last, total]
      exact earlier.put room bit path

/-- A search from an unmarked point that is reachable keeps the invariant. -/
theorem markMazeArea (marked : maze.Marked unmarked) {fuel x y : Nat}
    {after : Maze} {count : Nat} (room : maze.Room x y)
    (bit : maze.get x y &&& mazeReach = 0) (reachable : maze.Reachable x y)
    (searched : Mp2.markMazeArea fuel maze x y = some (after, count)) :
    after.Marked (unmarked - count) ∧ after.xDim = maze.xDim ∧ after.yDim = maze.yDim := by
  obtain ⟨points, distinct, rfl, rfl, joined⟩ :=
    markMazeArea_spec (marked.dug.walled (by have inside := room.2.2.1; omega))
      (show maze.Room (x, y).1 (x, y).2 from room) searched
  refine ⟨marked.mark distinct fun point member => ?_, rfl, rfl⟩
  have path := (joined point).1 member
  refine ⟨?_, ?_, reachable.trans (Relation.ReflTransGen.mono (fun _ _ step => step.1) _ _ path)⟩
  · rcases path.cases_tail with rfl | ⟨_, _, step⟩
    · exact room
    · exact step.1.stop
  · rcases path.cases_tail with rfl | ⟨_, _, step⟩
    · exact bit
    · exact step.2

end Marked

end Maze

end ComputerSystems.Mp2
