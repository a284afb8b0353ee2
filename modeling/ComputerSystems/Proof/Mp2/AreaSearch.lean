import ComputerSystems.Library.Exploration
import ComputerSystems.Proof.Mp2.Passages

namespace ComputerSystems.Mp2

open Library

namespace Maze

/-- The locations without a mark. -/
def fresh (maze : Maze) : Set (Nat × Nat) :=
  {point | maze.get point.1 point.2 &&& mazeReach = 0}

/-- The maze with marks on some lattice points. -/
def mark (maze : Maze) (points : List (Nat × Nat)) : Maze :=
  { maze with
    cells := fun place =>
      if place ∈ points.map maze.index then maze.cells place ||| mazeReach else maze.cells place }

/-- The lattice points of the maze. -/
def rooms (maze : Maze) : Finset (Nat × Nat) :=
  (Finset.range maze.xDim ×ˢ Finset.range maze.yDim).image fun point =>
    (point.1 * 2 + 1, point.2 * 2 + 1)

variable {maze : Maze}

theorem mem_rooms {point : Nat × Nat} (room : maze.Room point.1 point.2) : point ∈ maze.rooms := by
  obtain ⟨oddX, oddY, inside, below⟩ := room
  refine Finset.mem_image.2 ⟨(point.1 / 2, point.2 / 2), Finset.mem_product.2
    ⟨Finset.mem_range.2 ?_, Finset.mem_range.2 ?_⟩, Prod.ext ?_ ?_⟩
  all_goals
    dsimp only
    omega

theorem card_rooms_le (maze : Maze) : maze.rooms.card ≤ maze.xDim * maze.yDim := by
  refine Finset.card_image_le.trans ?_
  rw [Finset.card_product, Finset.card_range, Finset.card_range]

/-- Marks keep the walls. -/
theorem mark_wall (points : List (Nat × Nat)) (place : Nat) :
    (maze.mark points).cells place &&& mazeWall = maze.cells place &&& mazeWall := by
  rw [mark]
  dsimp only
  split_ifs
  · exact or_and_of_disjoint _ (by decide)
  · rfl

/-- A lattice point is unmarked when it was and is not one of the marked ones. -/
theorem mark_reach {points : List (Nat × Nat)}
    (inside : ∀ point ∈ points, maze.Room point.1 point.2)
    {point : Nat × Nat} (room : maze.Room point.1 point.2) :
    (maze.mark points).cells (maze.index point) &&& mazeReach = 0 ↔
      point ∈ maze.fresh ∧ point ∉ points := by
  have member : maze.index point ∈ points.map maze.index ↔ point ∈ points := by
    rw [List.mem_map]
    constructor
    · rintro ⟨other, known, same⟩
      rwa [← (index_inj (inside other known) room).1 same]
    · exact fun known => ⟨point, known, rfl⟩
  rw [mark]
  dsimp only
  by_cases known : point ∈ points
  · rw [if_pos (member.2 known)]
    exact iff_of_false (or_and_ne_zero _ (by decide)) fun both => both.2 known
  · rw [if_neg fun found => known (member.1 found)]
    exact (and_iff_left known).symm

/-- A mark on one more point. -/
theorem mark_concat {points : List (Nat × Nat)} {point : Nat × Nat}
    (absent : maze.index point ∉ points.map maze.index) :
    maze.mark (points ++ [point]) = (maze.mark points).put point.1 point.2
      ((maze.mark points).get point.1 point.2 ||| mazeReach) := by
  refine congrArg (fun cells => { maze with cells := cells }) (funext fun place => ?_)
  change _ = Function.update (maze.mark points).cells (maze.index point) _ place
  rw [Function.update_apply, List.map_append]
  by_cases here : place = maze.index point
  · rw [if_pos here, if_pos (by rw [here]; simp), here]
    change _ = (if maze.index point ∈ points.map maze.index then _ else _) ||| mazeReach
    rw [if_neg absent]
    rfl
  · have same : place ∈ points.map maze.index ++ [point].map maze.index ↔
        place ∈ points.map maze.index := by simp [here]
    rw [if_neg here, if_congr same rfl rfl]
    rfl

/-- The search has found some lattice points and has marked them. While one of them is active, its
neighbours are looked for. -/
structure Searched (maze : Maze) (start : Nat × Nat) (search : Search)
    (explored active waiting : List (Nat × Nat)) : Prop where
  exploring : Exploring maze.Passage maze.fresh start explored (active ++ waiting)
  first : maze.Room start.1 start.2
  cells : search.cells = (maze.mark (explored ++ (active ++ waiting))).cells
  queue : search.queue = waiting.map maze.index
  qEnd : search.qEnd = (explored ++ (active ++ waiting)).length

namespace Searched

variable {start cur : Nat × Nat} {search : Search} {explored active waiting : List (Nat × Nat)}

theorem room (searched : Searched maze start search explored active waiting) {point : Nat × Nat}
    (found : point ∈ explored ++ (active ++ waiting)) : maze.Room point.1 point.2 := by
  rcases (searched.exploring.joined point found).cases_tail with same | ⟨_, _, step⟩
  · rw [same]
    exact searched.first
  · exact step.1.stop

/-- One space next to the active point. -/
theorem explore (searched : Searched maze start search explored [cur] waiting) {door : Nat × Nat}
    (leads : maze.cells door.1 &&& mazeWall = 0 →
      ∃ next, maze.Passage cur next ∧ door.2 = maze.index next) :
    ∃ new, Searched maze start (search.explore door.1 door.2) explored [cur] (waiting ++ new) ∧
      ∀ next, maze.Room next.1 next.2 → maze.cells door.1 &&& mazeWall = 0 →
        door.2 = maze.index next → next ∈ maze.fresh →
          next ∈ explored ++ ([cur] ++ (waiting ++ new)) := by
  have space : search.cells door.1 &&& mazeWall = maze.cells door.1 &&& mazeWall := by
    rw [searched.cells, mark_wall]
  have marks (next : Nat × Nat) (room : maze.Room next.1 next.2) :
      search.cells (maze.index next) &&& mazeReach = 0 ↔
        next ∈ maze.fresh ∧ next ∉ explored ++ ([cur] ++ waiting) := by
    rw [searched.cells]
    exact mark_reach (fun point found => searched.room found) room
  rw [Search.explore]
  by_cases found : search.cells door.1 &&& mazeWall = 0 ∧ search.cells door.2 &&& mazeReach = 0
  · rw [if_pos found]
    obtain ⟨way, clear⟩ := found
    obtain ⟨next, passage, place⟩ := leads (space ▸ way)
    rw [place] at clear ⊢
    obtain ⟨unmarked, absent⟩ := (marks next passage.stop).1 clear
    have whole : explored ++ ([cur] ++ (waiting ++ [next])) =
        explored ++ ([cur] ++ waiting) ++ [next] := by simp
    refine ⟨[next], ⟨?_, searched.first, ?_, ?_, ?_⟩, fun other room _ same _ => ?_⟩
    · rw [← List.append_assoc]
      exact searched.exploring.find (List.mem_append_right _ (List.mem_append_left _
        List.mem_cons_self)) passage unmarked absent
    · have apart : maze.index next ∉ (explored ++ ([cur] ++ waiting)).map maze.index := by
        rw [List.mem_map]
        rintro ⟨other, known, same⟩
        exact absent ((index_inj (searched.room known) passage.stop).1 same ▸ known)
      rw [whole, mark_concat apart, searched.cells]
      rfl
    · rw [searched.queue, List.map_append, List.map_singleton]
    · rw [whole, List.length_append, searched.qEnd, List.length_singleton]
    · rw [whole, (index_inj room passage.stop).1 same.symm]
      exact List.mem_append_right _ List.mem_cons_self
  · rw [if_neg found]
    refine ⟨[], by rwa [List.append_nil], fun next room way place unmarked => ?_⟩
    rw [List.append_nil]
    by_contra absent
    exact found ⟨space ▸ way, place ▸ (marks next room).2 ⟨unmarked, absent⟩⟩

/-- Some spaces next to the active point in turn. -/
theorem exploreDoors (searched : Searched maze start search explored [cur] waiting)
    {doors : List (Nat × Nat)} (leads : ∀ door ∈ doors, maze.cells door.1 &&& mazeWall = 0 →
      ∃ next, maze.Passage cur next ∧ door.2 = maze.index next) :
    ∃ new, Searched maze start
        (doors.foldl (fun search door => search.explore door.1 door.2) search)
        explored [cur] (waiting ++ new) ∧
      ∀ door ∈ doors, ∀ next, maze.Room next.1 next.2 → maze.cells door.1 &&& mazeWall = 0 →
        door.2 = maze.index next → next ∈ maze.fresh →
          next ∈ explored ++ ([cur] ++ (waiting ++ new)) := by
  induction doors generalizing search waiting with
  | nil =>
      refine ⟨[], by rwa [List.append_nil], fun door member => ?_⟩
      exact absurd member List.not_mem_nil
  | cons door rest ih =>
      obtain ⟨new, first, found⟩ := searched.explore (leads door List.mem_cons_self)
      obtain ⟨later, all, others⟩ :=
        ih first fun other member => leads other (List.mem_cons_of_mem door member)
      rw [List.append_assoc] at all others
      refine ⟨new ++ later, all, fun other member next room way place unmarked => ?_⟩
      rcases List.mem_cons.1 member with rfl | old
      · have early := found next room way place unmarked
        simp only [List.mem_append] at early ⊢
        tauto
      · exact others other old next room way place unmarked

/-- One round explores the first point of the queue. -/
theorem round (searched : Searched maze start search explored [] (cur :: waiting))
    (walled : maze.Walled) :
    ∃ new, Searched maze start
      ({ search with queue := waiting.map maze.index }.exploreAll maze.xDim (maze.index cur))
      (explored ++ [cur]) [] (waiting ++ new) := by
  have room := searched.room (List.mem_append_right explored List.mem_cons_self)
  have active : Searched maze start { search with queue := waiting.map maze.index } explored [cur]
      waiting :=
    ⟨searched.exploring, searched.first, searched.cells, rfl, searched.qEnd⟩
  obtain ⟨new, ⟨exploring, first, cells, queue, qEnd⟩, found⟩ :=
    active.exploreDoors fun door member => walled.leads room member
  have whole : explored ++ [cur] ++ ([] ++ (waiting ++ new)) =
      explored ++ ([cur] ++ (waiting ++ new)) := by simp
  refine ⟨new, ?_, first, ?_, queue, ?_⟩
  · refine exploring.finish fun next passage unmarked => ?_
    obtain ⟨door, member, way, place⟩ := passage.door
    exact found door member next passage.stop way place unmarked
  · rw [whole]
    exact cells
  · rw [whole]
    exact qEnd

/-- A search that ends has explored all that it found. -/
theorem searchLoop {fuel : Nat} {done : Search} (walled : maze.Walled)
    (searched : Searched maze start search explored [] waiting)
    (looped : Mp2.searchLoop maze.xDim fuel search = some done) :
    ∃ points, Searched maze start done points [] [] := by
  induction fuel generalizing search explored waiting with
  | zero => cases looped
  | succ fuel ih =>
      rw [Mp2.searchLoop, searched.queue] at looped
      cases waiting with
      | nil =>
          cases looped
          exact ⟨explored, searched⟩
      | cons cur rest =>
          obtain ⟨new, next⟩ := searched.round walled
          exact ih next looped

/-- The search ends, because it explores each lattice point once. -/
theorem searchLoop_ends {fuel : Nat} (walled : maze.Walled)
    (searched : Searched maze start search explored [] waiting)
    (enough : maze.xDim * maze.yDim < fuel + explored.length) :
    ∃ done, Mp2.searchLoop maze.xDim fuel search = some done := by
  induction fuel generalizing search explored waiting with
  | zero =>
      have bound := searched.exploring.length_le maze.rooms (mem_rooms searched.first)
        fun _ _ passage => mem_rooms passage.stop
      have all := bound.trans (card_rooms_le maze)
      rw [List.length_append] at all
      omega
  | succ fuel ih =>
      rw [Mp2.searchLoop, searched.queue]
      cases waiting with
      | nil => exact ⟨search, rfl⟩
      | cons cur rest =>
          obtain ⟨new, next⟩ := searched.round walled
          refine ih next ?_
          rw [List.length_append, List.length_singleton]
          omega

/-- A new search has marked its start. -/
theorem begin (room : maze.Room start.1 start.2) :
    Searched maze start ⟨(maze.put start.1 start.2 (maze.get start.1 start.2 ||| mazeReach)).cells,
      [maze.index start], 1⟩ [] [] [start] := by
  refine ⟨.begin _ _ start, room, ?_, rfl, rfl⟩
  exact congrArg Maze.cells (@mark_concat maze [] start List.not_mem_nil).symm

end Searched

/-- The search marks the points that are joined to its start through unmarked points, and counts
them. -/
theorem markMazeArea_spec (walled : maze.Walled) {start : Nat × Nat} {fuel count : Nat}
    {after : Maze} (room : maze.Room start.1 start.2)
    (searched : markMazeArea fuel maze start.1 start.2 = some (after, count)) :
    ∃ points, points.Nodup ∧ points.length = count ∧ after = maze.mark points ∧
      ∀ point, point ∈ points ↔ Joined maze.Passage maze.fresh start point := by
  rw [markMazeArea] at searched
  obtain ⟨search, looped, result⟩ := Option.map_eq_some_iff.1 searched
  obtain ⟨points, exploring, _, cells, _, qEnd⟩ :=
    (Searched.begin room).searchLoop walled looped
  rw [List.append_nil, List.append_nil] at cells qEnd
  cases result
  have distinct : points.Nodup := by simpa using exploring.distinct
  exact ⟨points, distinct, qEnd.symm, by rw [cells]; rfl, exploring.mem_iff⟩

theorem markMazeArea_ends (walled : maze.Walled) {start : Nat × Nat} {fuel : Nat}
    (room : maze.Room start.1 start.2)
    (enough : maze.xDim * maze.yDim < fuel) :
    ∃ after count, markMazeArea fuel maze start.1 start.2 = some (after, count) := by
  obtain ⟨done, looped⟩ := (Searched.begin room).searchLoop_ends walled
    (Nat.lt_add_right _ enough)
  exact ⟨_, _, Option.map_eq_some_iff.2 ⟨done, looped, rfl⟩⟩

end Maze

end ComputerSystems.Mp2
