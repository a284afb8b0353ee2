import ComputerSystems.Construction.Mp2.MarkMazeArea
import ComputerSystems.Proof.Mp2.AreaSearch

namespace ComputerSystems.Mp2

open Library Maze

/-- The size of the maze fits the arrays. -/
structure Maze.Fits (maze : Maze) : Prop where
  columns : maze.xDim ≤ mazeMaxXDim
  rows : maze.yDim ≤ mazeMaxYDim

/-- A location of the maze array. -/
def inMaze (place : Int) : Prop := 0 ≤ place ∧ place < mazeSize

/-- The search in the arrays is the one on the lists: the queue array holds the points that entered
the queue, and no access leaves an array. -/
structure Stored (maze : Maze) (array : AreaSearch) (search : Search)
    (entered : List (Nat × Nat)) : Prop where
  cells : ∀ place : Nat, array.cells.memory place = search.cells place
  entries : (List.range array.qEnd).map array.q.memory =
    entered.map fun point => (maze.index point : Int)
  touched : ∀ place ∈ array.cells.touched, inMaze place
  slots : ∀ slot ∈ array.q.touched, slot < mazeMaxXDim * mazeMaxYDim

namespace Maze.Fits

variable {maze : Maze}

/-- Two rows below a lattice point are in the array. -/
theorem index_lt (fits : maze.Fits) {point : Nat × Nat} (room : maze.Room point.1 point.2) :
    maze.index point + 2 * maze.xDim < mazeSize := by
  obtain ⟨_, _, inside, below⟩ := room
  have rows : (point.2 + 1) * (maze.xDim * 2) ≤ (2 * maze.yDim) * (maze.xDim * 2) :=
    Nat.mul_le_mul_right _ below
  have columns : (2 * maze.yDim) * (maze.xDim * 2) ≤ (2 * mazeMaxYDim) * (mazeMaxXDim * 2) :=
    Nat.mul_le_mul (Nat.mul_le_mul_left 2 fits.rows) (Nat.mul_le_mul_right 2 fits.columns)
  have wide := fits.columns
  rw [index, mazeIndex, Nat.mul_assoc]
  dsimp only [mazeMaxXDim, mazeMaxYDim, mazeSize] at *
  omega

theorem card_le (fits : maze.Fits) : maze.rooms.card ≤ mazeMaxXDim * mazeMaxYDim :=
  (card_rooms_le maze).trans (Nat.mul_le_mul fits.columns fits.rows)

end Maze.Fits

/-- The first two rows of a maze are above its lattice points. -/
theorem Maze.Room.index_ge {maze : Maze} {point : Nat × Nat} (room : maze.Room point.1 point.2) :
    4 * maze.xDim + 1 ≤ maze.index point := by
  obtain ⟨oddX, oddY, _⟩ := room
  have rows : 2 * (maze.xDim * 2) ≤ (point.2 + 1) * (maze.xDim * 2) :=
    Nat.mul_le_mul_right _ (by omega)
  rw [index, mazeIndex, Nat.mul_assoc]
  omega

namespace Stored

variable {maze : Maze} {array : AreaSearch} {search : Search} {start cur : Nat × Nat}
variable {explored waiting : List (Nat × Nat)}

/-- The accesses to the maze array do not matter otherwise. -/
theorem look (stored : Stored maze array search explored) (places : List Int)
    (inside : ∀ place ∈ places, inMaze place) :
    Stored maze { array with cells := ⟨array.cells.memory, places ++ array.cells.touched⟩ } search
      explored where
  cells := stored.cells
  entries := stored.entries
  touched place member := by
    rcases List.mem_append.1 member with new | old
    · exact inside place new
    · exact stored.touched place old
  slots := stored.slots

/-- A new point is marked and enters the queue. -/
theorem found {point : Nat × Nat} (stored : Stored maze array search explored)
    (room : explored.length < mazeMaxXDim * mazeMaxYDim) (inside : inMaze (maze.index point)) :
    Stored maze
      { cells := array.cells.store (maze.index point)
          (array.cells.memory (maze.index point) ||| mazeReach)
        q := array.q.store array.qEnd (maze.index point)
        qStart := array.qStart
        qEnd := array.qEnd + 1 }
      { cells := Function.update search.cells (maze.index point)
          (search.cells (maze.index point) ||| mazeReach)
        queue := search.queue ++ [maze.index point]
        qEnd := search.qEnd + 1 }
      (explored ++ [point]) := by
  obtain ⟨cells, entries, touched, slots⟩ := stored
  have qEnd : array.qEnd = explored.length := by simpa using congrArg List.length entries
  refine ⟨fun place => ?_, ?_, fun place member => ?_, fun slot member => ?_⟩
  · simp only [Logged.store, Function.update_apply, Nat.cast_inj, cells]
  · rw [List.range_succ, List.map_append, List.map_append, ← entries]
    congr 1
    · refine List.map_congr_left fun slot member => ?_
      exact Function.update_of_ne (List.mem_range.1 member).ne _ _
    · simp [Logged.store]
  · rcases List.mem_cons.1 member with rfl | old
    · exact inside
    · exact touched place old
  · rcases List.mem_cons.1 member with rfl | old
    · rwa [qEnd]
    · exact slots slot old

/-- The exploration through one space. -/
theorem explore {new : List (Nat × Nat)} {between next : Nat} (fits : maze.Fits)
    (stored : Stored maze array search (explored ++ ([cur] ++ waiting)))
    (before : Searched maze start search explored [cur] waiting)
    (after : Searched maze start (search.explore between next) explored [cur] (waiting ++ new))
    (inside : inMaze between) (behind : search.cells between &&& mazeWall = 0 → inMaze next) :
    Stored maze (array.explore between next) (search.explore between next)
      (explored ++ ([cur] ++ (waiting ++ new))) := by
  have length := after.exploring.length_le maze.rooms (mem_rooms after.first)
    fun _ _ passage => mem_rooms passage.stop
  replace length := length.trans fits.card_le
  have queue := after.queue
  rw [List.map_append, ← before.queue] at queue
  have whole : explored ++ ([cur] ++ (waiting ++ new)) = explored ++ ([cur] ++ waiting) ++ new := by
    simp
  rw [whole] at length ⊢
  rw [Search.explore] at queue ⊢
  rw [AreaSearch.explore]
  dsimp only [Logged.load]
  simp only [stored.cells]
  by_cases way : search.cells between &&& mazeWall = 0
  · rw [if_pos way]
    have target := behind way
    by_cases clear : search.cells next &&& mazeReach = 0
    · have both := And.intro way clear
      rw [if_pos both] at queue ⊢
      rw [if_pos clear]
      obtain ⟨point, rfl, rfl⟩ := List.map_eq_singleton_iff.1 (List.append_cancel_left queue).symm
      have seen := stored.look [(maze.index point : Int), maze.index point, between]
        (by simp [inside, target])
      have result := seen.found (by rwa [List.length_append] at length) target
      simp only [stored.cells] at result
      exact result
    · have neither : ¬ (search.cells between &&& mazeWall = 0 ∧
          search.cells next &&& mazeReach = 0) := fun both => clear both.2
      rw [if_neg neither] at queue ⊢
      rw [if_neg clear, List.map_eq_nil_iff.1 (List.self_eq_append_right.1 queue), List.append_nil]
      exact stored.look [(next : Int), between] (by simp [inside, target])
  · have neither : ¬ (search.cells between &&& mazeWall = 0 ∧
        search.cells next &&& mazeReach = 0) := fun both => way both.1
    rw [if_neg neither] at queue ⊢
    rw [if_neg way, List.map_eq_nil_iff.1 (List.self_eq_append_right.1 queue), List.append_nil]
    exact stored.look [(between : Int)] (by simp [inside])

/-- Some spaces next to the active point in turn. -/
theorem exploreDoors {doors : List (Nat × Nat)} (fits : maze.Fits)
    (stored : Stored maze array search (explored ++ ([cur] ++ waiting)))
    (searched : Searched maze start search explored [cur] waiting)
    (leads : ∀ door ∈ doors, maze.cells door.1 &&& mazeWall = 0 →
      ∃ next, maze.Passage cur next ∧ door.2 = maze.index next)
    (inside : ∀ door ∈ doors, inMaze door.1) :
    ∃ new, Searched maze start
        (doors.foldl (fun search door => search.explore door.1 door.2) search)
        explored [cur] (waiting ++ new) ∧
      Stored maze (doors.foldl (fun array door => array.explore door.1 door.2) array)
        (doors.foldl (fun search door => search.explore door.1 door.2) search)
        (explored ++ ([cur] ++ (waiting ++ new))) := by
  induction doors generalizing array search waiting with
  | nil => exact ⟨[], by rwa [List.append_nil], by rwa [List.append_nil]⟩
  | cons door rest ih =>
      have lead := leads door List.mem_cons_self
      obtain ⟨new, after, _⟩ := searched.explore lead
      have next := stored.explore fits searched after (inside door List.mem_cons_self) fun way => by
        rw [searched.cells, mark_wall] at way
        obtain ⟨next, passage, place⟩ := lead way
        rw [place]
        exact ⟨Int.natCast_nonneg _, by have := fits.index_lt passage.stop; omega⟩
      obtain ⟨later, all, last⟩ := ih next after
        (fun other member => leads other (List.mem_cons_of_mem door member))
        (fun other member => inside other (List.mem_cons_of_mem door member))
      rw [List.append_assoc] at all last
      exact ⟨new ++ later, all, last⟩

end Stored

@[simp] theorem AreaSearch.explore_qStart (between next : Int) (array : AreaSearch) :
    (array.explore between next).qStart = array.qStart := by
  dsimp only [explore]
  split_ifs <;> rfl

/-- The signed offsets of the search reach the spaces next to a lattice point. -/
theorem AreaSearch.exploreAll_doors {maze : Maze} {point : Nat × Nat}
    (room : maze.Room point.1 point.2) (array : AreaSearch) :
    array.exploreAll maze.xDim (maze.index point) =
      (maze.doors (maze.index point)).foldl
        (fun array door => array.explore door.1 door.2) array := by
  have far := room.index_ge
  have wide := room.2.2.1
  have up : (maze.index point : Int) + -2 * maze.xDim =
      (maze.index point - 2 * maze.xDim : Nat) := by
    omega
  have aboveUp : (maze.index point : Int) + -4 * maze.xDim =
      (maze.index point - 4 * maze.xDim : Nat) := by omega
  have left : (maze.index point : Int) + -1 = (maze.index point - 1 : Nat) := by omega
  have beyondLeft : (maze.index point : Int) + -2 = (maze.index point - 2 : Nat) := by omega
  rw [exploreAll, up, aboveUp, left, beyondLeft]
  simp only [Maze.doors, List.foldl_cons, List.foldl_nil, Nat.cast_add, Nat.cast_mul,
    Nat.cast_ofNat, Nat.cast_one]

namespace Stored

variable {maze : Maze} {array : AreaSearch} {search : Search} {start cur : Nat × Nat}
variable {explored waiting : List (Nat × Nat)}

/-- The point at the index of the queue. -/
theorem entry (stored : Stored maze array search (explored ++ cur :: waiting)) :
    array.q.memory explored.length = maze.index cur := by
  have same := congrArg (fun entries => entries[explored.length]?) stored.entries
  have qEnd : array.qEnd = (explored ++ cur :: waiting).length := by
    simpa using congrArg List.length stored.entries
  simpa [qEnd] using same

/-- One round of the loop. -/
theorem round (fits : maze.Fits) (walled : maze.Walled)
    (stored : Stored maze array search (explored ++ cur :: waiting))
    (searched : Searched maze start search explored [] (cur :: waiting))
    (qStart : array.qStart = explored.length) :
    ∃ new, Searched maze start
        ({ search with queue := waiting.map maze.index }.exploreAll maze.xDim (maze.index cur))
        (explored ++ [cur]) [] (waiting ++ new) ∧
      Stored maze
        ({ array with
            q := (array.q.load array.qStart).2
            qStart := array.qStart + 1 }.exploreAll maze.xDim (array.q.load array.qStart).1)
        ({ search with queue := waiting.map maze.index }.exploreAll maze.xDim (maze.index cur))
        (explored ++ [cur] ++ (waiting ++ new)) := by
  have room := searched.room (List.mem_append_right explored List.mem_cons_self)
  have active : Searched maze start { search with queue := waiting.map maze.index } explored [cur]
      waiting :=
    ⟨searched.exploring, searched.first, searched.cells, rfl, searched.qEnd⟩
  have qEnd : array.qEnd = (explored ++ cur :: waiting).length := by
    simpa using congrArg List.length stored.entries
  have length := searched.exploring.length_le maze.rooms (mem_rooms searched.first)
    fun _ _ passage => mem_rooms passage.stop
  replace length := length.trans fits.card_le
  have taken : Stored maze
      { array with q := (array.q.load array.qStart).2, qStart := array.qStart + 1 }
      { search with queue := waiting.map maze.index } (explored ++ ([cur] ++ waiting)) := by
    refine ⟨stored.cells, stored.entries, stored.touched, fun slot member => ?_⟩
    rcases List.mem_cons.1 member with rfl | old
    · rw [List.nil_append, List.length_append, List.length_cons] at length
      omega
    · exact stored.slots slot old
  have location : (array.q.load array.qStart).1 = maze.index cur := by
    rw [Logged.load, qStart, stored.entry]
  rw [location, AreaSearch.exploreAll_doors room]
  obtain ⟨new, after, ends⟩ := taken.exploreDoors fits active
    (fun door member => walled.leads room member) fun door member => by
      have low := room.index_ge
      have high := fits.index_lt room
      have wide := room.2.2.1
      simp only [doors, List.mem_cons, List.not_mem_nil, or_false] at member
      rcases member with rfl | rfl | rfl | rfl <;> dsimp only [inMaze] <;> omega
  obtain ⟨others, next⟩ := searched.round walled
  have same : (waiting ++ new).map maze.index = (waiting ++ others).map maze.index :=
    after.queue.symm.trans next.queue
  refine ⟨others, next, ends.cells, ?_, ends.touched, ends.slots⟩
  rw [List.map_append, List.map_append] at same
  have cast := congrArg (List.map fun index : Nat => (index : Int)) (List.append_cancel_left same)
  rw [List.map_map, List.map_map] at cast
  rw [ends.entries]
  simp only [List.map_append, List.append_assoc]
  exact congrArg _ (congrArg _ (congrArg _ cast))

/-- The search in the arrays ends with the search on the lists. -/
theorem loop {fuel : Nat} {done : Search} (fits : maze.Fits) (walled : maze.Walled)
    (stored : Stored maze array search (explored ++ waiting))
    (searched : Searched maze start search explored [] waiting)
    (qStart : array.qStart = explored.length)
    (looped : searchLoop maze.xDim fuel search = some done) :
    ∃ points last, array.loop maze.xDim fuel = some last ∧
      Searched maze start done points [] [] ∧ Stored maze last done points := by
  have qEnd : array.qEnd = (explored ++ waiting).length := by
    simpa using congrArg List.length stored.entries
  induction fuel generalizing array search explored waiting with
  | zero => cases looped
  | succ fuel ih =>
      rw [searchLoop, searched.queue] at looped
      rw [AreaSearch.loop]
      cases waiting with
      | nil =>
          cases looped
          rw [List.append_nil] at stored qEnd
          rw [if_pos (qStart.trans qEnd.symm)]
          exact ⟨explored, array, rfl, searched, stored⟩
      | cons cur rest =>
          rw [List.length_append, List.length_cons] at qEnd
          rw [if_neg (by omega)]
          obtain ⟨new, next, after⟩ := stored.round fits walled searched qStart
          refine ih after next ?_ looped ?_
          · rw [AreaSearch.exploreAll]
            simp [qStart]
          · simpa using congrArg List.length after.entries

/-- The arrays at the start of the search. -/
theorem begin (fits : maze.Fits) (unset : Nat → Int) {x y : Nat} (room : maze.Room x y) :
    Stored maze (.start maze unset x y)
      ⟨(maze.put x y (maze.get x y ||| mazeReach)).cells, [maze.mazeIndex x y], 1⟩ [(x, y)] := by
  have place : maze.place x y = maze.mazeIndex x y := by
    rw [Maze.place, mazeIndex]
    push_cast
    rfl
  have high := @Maze.Fits.index_lt maze fits (x, y) room
  have inside : inMaze (maze.place x y) := by
    rw [place]
    exact ⟨Int.natCast_nonneg _, by dsimp only [index] at high; omega⟩
  have first : AreaSearch.start maze unset x y =
      { cells := ⟨Function.update (fun place => maze.cells place.toNat) (maze.place x y)
          (maze.cells (maze.place x y).toNat ||| mazeReach), [maze.place x y, maze.place x y]⟩
        q := ⟨Function.update unset 0 (maze.place x y), [0, 0]⟩
        qStart := 0
        qEnd := 1 } := by
    simp [AreaSearch.start, Logged.store, Logged.load, array]
  rw [first]
  refine ⟨fun location => ?_, ?_, fun location member => ?_, fun slot member => ?_⟩
  · dsimp only
    rw [place, Int.toNat_natCast]
    simp only [Function.update_apply, Nat.cast_inj, put, Maze.get, Int.toNat_natCast]
  · simp [place, index]
  · obtain rfl : location = maze.place x y := by simpa using member
    exact inside
  · obtain rfl : slot = 0 := by simpa using member
    decide

end Stored

/-- The search in the arrays ends. It has marked the points that are joined to its start through
unmarked points, each of which entered the queue once, and has changed nothing else. No access
leaves the maze or the queue. -/
theorem markMazeArea_correct {maze : Maze} (fits : maze.Fits) (walled : maze.Walled)
    (unset : Nat → Int) {x y fuel : Nat} (room : maze.Room x y) (clear : (x, y) ∈ maze.fresh)
    (enough : maze.xDim * maze.yDim < fuel) :
    ∃ points after, markMazeAreaIn fuel maze unset x y = some (points.length, after) ∧
      points.Nodup ∧ points.length ≤ mazeMaxXDim * mazeMaxYDim ∧
      (∀ point, point ∈ points ↔ Joined maze.Passage maze.fresh (x, y) point) ∧
      (∀ point ∈ points, maze.Room point.1 point.2 ∧ point ∈ maze.fresh) ∧
      (∀ place : Nat, after.cells.memory place = (maze.mark points).cells place) ∧
      (List.range after.qEnd).map after.q.memory =
        points.map (fun point => (maze.index point : Int)) ∧
      (∀ place ∈ after.cells.touched, inMaze place) ∧
      ∀ slot ∈ after.q.touched, slot < mazeMaxXDim * mazeMaxYDim := by
  have searched := @Searched.begin maze (x, y) room
  obtain ⟨done, looped⟩ := searched.searchLoop_ends walled (Nat.lt_add_right _ enough)
  obtain ⟨points, after, result, ended, stored⟩ :=
    (Stored.begin fits unset room).loop fits walled searched rfl looped
  have exploring := ended.exploring
  have length := exploring.length_le maze.rooms (mem_rooms ended.first)
    fun _ _ passage => mem_rooms passage.stop
  have cells := ended.cells
  have distinct := exploring.distinct
  have found := fun point => @Searched.room _ _ _ _ _ _ ended point
  simp only [List.append_nil] at length cells distinct found
  refine ⟨points, after, ?_, distinct, length.trans fits.card_le, exploring.mem_iff,
    fun point member => ⟨found point member, ?_⟩, fun place => ?_, stored.entries, stored.touched,
    stored.slots⟩
  · rw [markMazeAreaIn, result]
    have qEnd : after.qEnd = points.length := by simpa using congrArg List.length stored.entries
    simp [qEnd]
  · rcases ((exploring.mem_iff point).1 member).cases_tail with same | ⟨_, _, step⟩
    · rwa [same]
    · exact step.2
  · rw [stored.cells, cells]

theorem markMazeArea_correct_hall :
    ∃ points after, markMazeAreaIn 113 hall 0 3 5 = some (points.length, after) ∧
      points.Nodup ∧ points.length ≤ mazeMaxXDim * mazeMaxYDim ∧
      (∀ point, point ∈ points ↔ Joined hall.Passage hall.fresh (3, 5) point) ∧
      (∀ point ∈ points, hall.Room point.1 point.2 ∧ point ∈ hall.fresh) ∧
      (∀ place : Nat, after.cells.memory place = (hall.mark points).cells place) ∧
      (List.range after.qEnd).map after.q.memory =
        points.map (fun point => (hall.index point : Int)) ∧
      (∀ place ∈ after.cells.touched, inMaze place) ∧
      ∀ slot ∈ after.q.touched, slot < mazeMaxXDim * mazeMaxYDim :=
  markMazeArea_correct ⟨by decide, by decide⟩ hall_walled 0 ⟨by decide, by decide, by decide,
    by decide⟩ (show hall.get 3 5 &&& mazeReach = 0 by decide) (by decide)

end ComputerSystems.Mp2
