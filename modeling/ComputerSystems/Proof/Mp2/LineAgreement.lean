import ComputerSystems.Construction.Mp2.MazeArray
import ComputerSystems.Proof.Mp2.LineBuffers

namespace ComputerSystems.Mp2

open Library

/-- The dimensions fit the maze array. -/
structure Maze.Sized (maze : Maze) : Prop where
  wide : 0 < maze.xDim
  xDim : maze.xDim ≤ mazeMaxXDim
  yDim : maze.yDim ≤ mazeMaxYDim

/-- The places of the maze array. -/
def mazeArray : Set Int := {place | 0 ≤ place ∧ place < mazeSize}

section
variable {maze : Maze} {x y : Nat}

/-- A picture cell and its four neighbours lie in the array, also at the boundaries: the row above
the maze and the row below it are part of the array, and the neighbour of the last column is the
first cell of the next row. -/
theorem stencil_mem (sized : maze.Sized) (column : x ≤ 2 * maze.xDim) (row : y ≤ 2 * maze.yDim)
    {dx dy : Int} (near : (dx = 0 ∧ -1 ≤ dy ∧ dy ≤ 1) ∨ (dy = 0 ∧ -1 ≤ dx ∧ dx ≤ 1)) :
    maze.place (x + dx) (y + dy) ∈ mazeArray := by
  obtain ⟨wide, xDim, yDim⟩ := sized
  have rows : (y + 2) * maze.xDim ≤ (2 * mazeMaxYDim + 2) * mazeMaxXDim :=
    Nat.mul_le_mul (by omega) xDim
  have first : maze.xDim ≤ (y + 1) * maze.xDim := Nat.le_mul_of_pos_left _ (by omega)
  have expand : (y + 2) * maze.xDim = (y + 1) * maze.xDim + maze.xDim := by ring
  rw [expand] at rows
  have product : ((y + 1 : Int)) * maze.xDim = ((y + 1) * maze.xDim : Nat) := by push_cast; ring
  have shifted : ((y : Int) + dy + 1) * maze.xDim =
      ((y + 1) * maze.xDim : Nat) + dy * maze.xDim := by
    rw [← product]
    ring
  simp only [mazeMaxXDim, mazeMaxYDim] at *
  simp only [mazeArray, mazeSize, mazeMaxXDim, mazeMaxYDim, Maze.place, Set.mem_ofPred_eq]
  rw [shifted]
  generalize (y + 1) * maze.xDim = rowStart at *
  rcases near with ⟨rfl, up, down⟩ | ⟨rfl, left, right⟩
  · have three : dy = -1 ∨ dy = 0 ∨ dy = 1 := by omega
    rcases three with rfl | rfl | rfl <;> omega
  · omega

/-- The places of the stencil are those of the picture cell and its neighbours. -/
theorem place_toNat (maze : Maze) (x y : Nat) :
    (maze.place x y).toNat = maze.mazeIndex x y ∧
      (maze.place x (y - 1)).toNat = maze.mazeIndex x y - 2 * maze.xDim ∧
      (maze.place (x + 1) y).toNat = maze.mazeIndex x y + 1 ∧
      (maze.place x (y + 1)).toNat = maze.mazeIndex x y + 2 * maze.xDim ∧
      (maze.place (x - 1) y).toNat = maze.mazeIndex x y - 1 := by
  have row : ((y : Int) + 1) * maze.xDim = ((y + 1) * maze.xDim : Nat) := by push_cast; ring
  have above : ((y : Int) - 1 + 1) * maze.xDim = ((y + 1) * maze.xDim : Nat) - maze.xDim := by
    rw [← row]
    ring
  have below : ((y : Int) + 1 + 1) * maze.xDim = ((y + 1) * maze.xDim : Nat) + maze.xDim := by
    rw [← row]
    ring
  simp only [Maze.place, Maze.mazeIndex, row, above, below]
  omega

theorem wallPattern_confined (sized : maze.Sized) (column : x ≤ 2 * maze.xDim)
    (row : y ≤ 2 * maze.yDim) (array : Logged Int UInt8) :
    Confined mazeArray array (wallPattern maze x y array).2 := by
  have up : maze.place (x + 0) (y + -1) ∈ mazeArray := stencil_mem sized column row (by omega)
  have right : maze.place (x + 1) (y + 0) ∈ mazeArray := stencil_mem sized column row (by omega)
  have down : maze.place (x + 0) (y + 1) ∈ mazeArray := stencil_mem sized column row (by omega)
  have left : maze.place (x + -1) (y + 0) ∈ mazeArray := stencil_mem sized column row (by omega)
  rw [Int.add_zero] at up right down left
  exact (((Confined.load up array).loaded right).loaded down).loaded left

/-- `find_block` touches only the array. -/
theorem findBlockIn_confined (sized : maze.Sized) (column : x ≤ 2 * maze.xDim)
    (row : y ≤ 2 * maze.yDim) (array : Logged Int UInt8) :
    Confined mazeArray array (findBlockIn maze x y array).2 := by
  have center : maze.place (x + 0) (y + 0) ∈ mazeArray :=
    stencil_mem sized column row (by omega)
  rw [Int.add_zero, Int.add_zero] at center
  have fruit := Confined.load center array
  have exit : Confined mazeArray array (if maze.nFruits = 0 then
      (array.load (maze.place x y)).2.load (maze.place x y)
        else (0, (array.load (maze.place x y)).2)).2 := by
    split
    · exact fruit.loaded center
    · exact fruit
  unfold findBlockIn
  dsimp only
  generalize (if maze.nFruits = 0 then (array.load (maze.place x y)).2.load (maze.place x y)
    else (0, (array.load (maze.place x y)).2)) = tested at exit ⊢
  have reach := exit.loaded center
  split
  · exact exit
  · split
    · exact reach
    · split
      · exact reach
      · split
        · exact reach.loaded center
        · exact (reach.loaded center).trans (wallPattern_confined sized column row _)

/-- The loads of `find_block` find its block. -/
theorem findBlockIn_eq (maze : Maze) (x y : Nat) (touched : List Int) :
    (findBlockIn maze x y (maze.array touched)).1 = findBlock maze x y := by
  obtain ⟨center, up, right, down, left⟩ := place_toNat maze x y
  have pattern (log : List Int) : (wallPattern maze x y (maze.array log)).1 =
      ((if maze.cells (maze.mazeIndex x y - 2 * maze.xDim) &&& mazeWall ≠ 0 then 1 else 0) |||
        (if maze.cells (maze.mazeIndex x y + 1) &&& mazeWall ≠ 0 then 2 else 0) |||
        (if maze.cells (maze.mazeIndex x y + 2 * maze.xDim) &&& mazeWall ≠ 0 then 4 else 0) |||
        if maze.cells (maze.mazeIndex x y - 1) &&& mazeWall ≠ 0 then 8 else 0) := by
    rw [← up, ← right, ← down, ← left]
    rfl
  have exits : ((if maze.nFruits = 0 then
      ((maze.array touched).load (maze.place x y)).2.load (maze.place x y)
        else (0, ((maze.array touched).load (maze.place x y)).2)).1 &&& mazeExit ≠ 0) ↔
      maze.nFruits = 0 ∧ maze.cells (maze.mazeIndex x y) &&& mazeExit ≠ 0 := by
    rw [← center]
    split
    next none => exact ⟨fun exit => ⟨none, exit⟩, And.right⟩
    next more =>
      have none : (0 : UInt8) &&& mazeExit = 0 := by decide
      exact ⟨fun exit => absurd none exit, fun exit => absurd exit.1 more⟩
  have same : ∃ log, (if maze.nFruits = 0 then
      ((maze.array touched).load (maze.place x y)).2.load (maze.place x y)
        else (0, ((maze.array touched).load (maze.place x y)).2)).2 = maze.array log := by
    split
    · exact ⟨_, rfl⟩
    · exact ⟨_, rfl⟩
  unfold findBlockIn findBlock
  dsimp only
  generalize (if maze.nFruits = 0 then
    ((maze.array touched).load (maze.place x y)).2.load (maze.place x y)
      else (0, ((maze.array touched).load (maze.place x y)).2)) = tested at exits same ⊢
  obtain ⟨log, same⟩ := same
  have loaded (log : List Int) :
      (maze.array log).load (maze.place x y) =
        (maze.cells (maze.mazeIndex x y), maze.array (maze.place x y :: log)) := by
    rw [← center]
    rfl
  simp only [exits, same, loaded, pattern, apply_ite Prod.fst]

end

/-- The lines of both directions show the pixels of one picture. Its blocks are found from cells of
the maze array alone, for every cell of the picture. -/
theorem lineImages_agree (blocks : Blocks) {maze : Maze} (sized : maze.Sized) :
    (∀ x y, ∀ i < scrollXDim,
      fillHorizBuffer blocks maze x y i = pixelOf blocks maze (x + i, y)) ∧
      (∀ x y, ∀ j < scrollYDim,
        fillVertBuffer blocks maze x y j = pixelOf blocks maze (x, y + j)) ∧
      (∀ x y u v, ∀ i < scrollXDim, ∀ j < scrollYDim, x + i = u → y = v + j →
        fillHorizBuffer blocks maze x y i = fillVertBuffer blocks maze u v j) ∧
      ∀ x y touched, x ≤ 2 * maze.xDim → y ≤ 2 * maze.yDim →
        (findBlockIn maze x y (maze.array touched)).1 = findBlock maze x y ∧
          Confined mazeArray (maze.array touched)
            (findBlockIn maze x y (maze.array touched)).2 := by
  refine ⟨fun x y i inside => fillHorizBuffer_eq blocks maze x y inside,
    fun x y j inside => fillVertBuffer_eq blocks maze x y inside, ?_, ?_⟩
  · rintro x y u v i near j low rfl rfl
    rw [fillHorizBuffer_eq blocks maze x (v + j) near, fillVertBuffer_eq blocks maze (x + i) v low]
  · exact fun x y touched column row =>
      ⟨findBlockIn_eq maze x y touched, findBlockIn_confined sized column row _⟩

/-- The smallest maze that may be made, all walls. -/
theorem lineImages_agree_smallest :
    fillHorizBuffer (fun _ place => .ofNat place) ⟨fun _ => mazeWall, 14, 8, 0, 0, 0⟩ 12 12 7 =
      fillVertBuffer (fun _ place => .ofNat place) ⟨fun _ => mazeWall, 14, 8, 0, 0, 0⟩ 19 5 7 :=
  (lineImages_agree (fun _ place => .ofNat place) ⟨by decide, by decide, by decide⟩).2.2.1
    12 12 19 5 7 (by decide) 7 (by decide) rfl rfl

end ComputerSystems.Mp2
