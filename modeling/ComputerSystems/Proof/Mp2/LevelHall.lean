import ComputerSystems.Proof.Mp2.FruitCount
import ComputerSystems.Proof.Mp2.Walking

namespace ComputerSystems.Mp2

open Library

namespace Maze

variable {maze other : Maze}

/-- The maze of a level after the removal of all inner walls. -/
structure Hall (maze : Maze) : Prop where
  walled : maze.Walled
  opened : ∀ x y, 0 < x → x < 2 * maze.xDim → 0 < y → y < 2 * maze.yDim → maze.Open x y

theorem SameWalls.hall (same : SameWalls maze other) (hall : maze.Hall) : other.Hall := by
  refine ⟨same.walled hall.walled, fun x y left right top bottom => ?_⟩
  rw [same.open_iff]
  exact hall.opened x y left (same.xDim ▸ right) top (same.yDim ▸ bottom)

theorem Dug.hall (dug : maze.Dug) (wide : 0 < maze.xDim) : maze.cleared.Hall := by
  obtain ⟨⟨columns, rows⟩, cells⟩ := dug.get_cleared
  have solid (x y : Nat) (inside : x < 2 * maze.xDim)
      (edge : x = 0 ∨ y = 0 ∨ 2 * maze.yDim ≤ y) : maze.cleared.get x y = mazeWall := by
    rw [cells x y inside, if_neg (by omega)]
  constructor
  · intro x y inside below edge way
    rw [columns] at inside edge
    rw [rows] at below edge
    have wall : maze.cleared.get x y = mazeWall := by
      rcases inside.lt_or_eq with less | rfl
      · exact solid x y less (by omega)
      · have right := maze.cleared.get_right y
        rw [columns] at right
        rw [right]
        exact solid 0 (y + 1) (by omega) (.inl rfl)
    rw [Open, wall] at way
    exact absurd way (by decide)
  · intro x y left right top bottom
    rw [columns] at right
    rw [rows] at bottom
    rw [Open, cells x y right, if_pos ⟨left, top, bottom⟩]
    decide

theorem fruit_plain (number : Nat) :
    (UInt8.ofNat (number % numFruitTypes + 1) * mazeFruit1) &&& mazeWall = 0 := by
  have below : number % numFruitTypes < 7 := Nat.mod_lt number (by decide)
  generalize number % numFruitTypes = kind at below
  interval_cases kind <;> decide

theorem addFruits_walls {random : Nat → Nat} {fuel count drawn last : Nat}
    (added : addFruits random fuel count maze drawn = some (other, last)) :
    SameWalls maze other := by
  induction count generalizing maze drawn with
  | zero =>
      cases added
      exact .refl _
  | succ count ih =>
      rw [addFruits] at added
      cases first : addAFruitInternal random fuel maze drawn with
      | none =>
          rw [first] at added
          cases added
      | some result =>
          rw [first] at added
          refine SameWalls.trans ?_ (ih added)
          rw [addAFruitInternal] at first
          obtain ⟨⟨x, y, seen⟩, _, rfl⟩ := Option.map_eq_some_iff.1 first
          exact ⟨rfl, rfl, put_walls (or_and_of_disjoint _ (fruit_plain (random seen)))⟩

theorem placeExit_walls {random : Nat → Nat} {fuel drawn : Nat}
    (placed : placeExit random fuel maze drawn = some other) : SameWalls maze other := by
  rw [placeExit] at placed
  obtain ⟨⟨x, y, last⟩, _, rfl⟩ := Option.map_eq_some_iff.1 placed
  exact ⟨rfl, rfl, put_walls (or_and_of_disjoint _ (by decide))⟩

/-- Every maze that the generation returns is a hall. -/
theorem makeMaze_hall {fuel : Nat} {random : Nat → Nat} {xDim yDim startFruits : Nat}
    {before : Maze} (made : makeMaze fuel random xDim yDim startFruits before = some (0, maze)) :
    maze.Hall := by
  obtain ⟨⟨wide, _⟩, dug, drawn, fruited, last, ⟨walls, columns, _⟩, added, placed⟩ :=
    makeMaze_stages made
  have hall := walls.hall (by rw [columns]; exact lt_of_lt_of_le (by decide) wide)
  have grown := addFruits_walls added
  have plain : SameWalls dug.cleared fruited := ⟨grown.xDim, grown.yDim, grown.wall⟩
  exact (plain.trans (placeExit_walls placed)).hall hall

end Maze

end ComputerSystems.Mp2
