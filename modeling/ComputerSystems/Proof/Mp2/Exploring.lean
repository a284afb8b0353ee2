import ComputerSystems.Proof.Mp2.Drawing
import ComputerSystems.Proof.Mp2.Furnishing

namespace ComputerSystems.Mp2

open Library Maze

/-- The picture of a block depends on its own cell, the walls, and whether fruit hides the exit. -/
theorem findBlock_congr {maze other : Maze} {x y : Nat} (xDim : other.xDim = maze.xDim)
    (cell : other.get x y = maze.get x y)
    (walls : ∀ place, other.cells place &&& mazeWall = maze.cells place &&& mazeWall)
    (exit : maze.get x y &&& mazeExit ≠ 0 → (other.nFruits = 0 ↔ maze.nFruits = 0)) :
    findBlock other x y = findBlock maze x y := by
  have index : other.mazeIndex x y = maze.mazeIndex x y := by rw [mazeIndex, mazeIndex, xDim]
  have own : other.cells (maze.mazeIndex x y) = maze.cells (maze.mazeIndex x y) := by
    rwa [Maze.get, Maze.get, index] at cell
  have hidden : other.nFruits = 0 ∧ maze.cells (maze.mazeIndex x y) &&& mazeExit ≠ 0 ↔
      maze.nFruits = 0 ∧ maze.cells (maze.mazeIndex x y) &&& mazeExit ≠ 0 :=
    and_congr_left exit
  unfold findBlock
  simp only [index, own, walls, xDim, hidden]

namespace Maze

variable {maze : Maze}

/-- Only the left and the right boundary share cells. -/
theorem mazeIndex_alias {x y u v : Nat} (wide : 0 < maze.xDim) (inside : x ≤ 2 * maze.xDim)
    (other : u ≤ 2 * maze.xDim) (same : maze.mazeIndex x y = maze.mazeIndex u v) :
    (x = u ∧ y = v) ∨ (x = 0 ∧ u = 2 * maze.xDim) ∨ (x = 2 * maze.xDim ∧ u = 0) := by
  rcases inside.lt_or_eq with less | rfl
  · rcases other.lt_or_eq with lessOther | rfl
    · exact .inl ((mazeIndex_inj less lessOther).1 same)
    · rw [mazeIndex_right] at same
      obtain ⟨rfl, _⟩ := (mazeIndex_inj less (by omega)).1 same
      exact .inr (.inl ⟨rfl, rfl⟩)
  · rcases other.lt_or_eq with lessOther | rfl
    · rw [mazeIndex_right] at same
      obtain ⟨rfl, _⟩ := (mazeIndex_inj (by omega) lessOther).1 same
      exact .inr (.inr ⟨rfl, rfl⟩)
    · rw [mazeIndex_right, mazeIndex_right] at same
      have rows := ((mazeIndex_inj (by omega) (by omega)).1 same).2
      exact .inl ⟨rfl, by omega⟩

theorem get_put_of_index_ne {x y u v : Nat} {value : UInt8}
    (apart : maze.mazeIndex u v ≠ maze.mazeIndex x y) :
    (maze.put x y value).get u v = maze.get u v :=
  Function.update_of_ne apart ..

/-- A change of a cell that keeps its wall keeps all walls. -/
theorem put_walls {x y : Nat} {value : UInt8}
    (wall : value &&& mazeWall = maze.get x y &&& mazeWall) (place : Nat) :
    (maze.put x y value).cells place &&& mazeWall = maze.cells place &&& mazeWall := by
  by_cases here : place = maze.mazeIndex x y
  · rw [here]
    show (maze.put x y value).get x y &&& mazeWall = _
    rw [get_put_self, wall]
    rfl
  · have kept : (maze.put x y value).cells place = maze.cells place :=
      Function.update_of_ne here ..
    rw [kept]

/-- No exit is on the right boundary either. -/
theorem Furnished.exit_le (furnished : maze.Furnished) {x y : Nat} (wide : 0 < maze.xDim)
    (inside : x ≤ 2 * maze.xDim) (exit : maze.get x y &&& mazeExit ≠ 0) :
    x = maze.exitX ∧ y = maze.exitY := by
  rcases inside.lt_or_eq with less | rfl
  · exact (furnished.exit x y less exit).2
  · rw [get_right] at exit
    have odd := (furnished.exit 0 (y + 1) (by omega) exit).1.1
    omega

/-- The mark of a location keeps fruits and exit. -/
theorem Furnished.put_reach (furnished : maze.Furnished) {x y : Nat} (wide : 0 < maze.xDim)
    (inside : x ≤ 2 * maze.xDim) : (maze.put x y (maze.get x y ||| mazeReach)).Furnished := by
  have inner (u v : Nat) (bound : u < 2 * maze.xDim) :
      (maze.put u v (maze.get u v ||| mazeReach)).Furnished := by
    refine ⟨furnished.fruited.put_or bound (by decide), fun a b within exit => ?_⟩
    refine furnished.exit a b within ?_
    by_cases here : a = u ∧ b = v
    · rw [here.1, here.2, get_put_self, or_and_of_disjoint _ (by decide)] at exit
      rwa [here.1, here.2]
    · rwa [get_put_of_ne bound within here] at exit
  rcases inside.lt_or_eq with less | rfl
  · exact inner x y less
  · have moved : maze.put (2 * maze.xDim) y (maze.get (2 * maze.xDim) y ||| mazeReach) =
        maze.put 0 (y + 1) (maze.get 0 (y + 1) ||| mazeReach) := by
      rw [put, put, get_right, mazeIndex_right]
    rw [moved]
    exact inner 0 (y + 1) (by omega)

/-- The maze without the fruit at a location. -/
def eaten (maze : Maze) (x y : Nat) : Maze :=
  { maze.put x y (maze.get x y &&& ~~~mazeFruit) with nFruits := maze.nFruits - 1 }

theorem get_eaten_of_ne {x y u v : Nat} (inside : x < 2 * maze.xDim) (bound : u < 2 * maze.xDim)
    (apart : ¬ (u = x ∧ v = y)) : (maze.eaten x y).get u v = maze.get u v :=
  get_put_of_ne inside bound apart

theorem get_eaten_self (x y : Nat) :
    (maze.eaten x y).get x y = maze.get x y &&& ~~~mazeFruit :=
  maze.get_put_self x y (maze.get x y &&& ~~~mazeFruit)

/-- The removal of a fruit lowers the number of fruits by one. -/
theorem Furnished.eaten (furnished : maze.Furnished) {x y : Nat} (inside : x < 2 * maze.xDim)
    (fruit : hasFruit (maze.get x y) = true) :
    (maze.eaten x y).Furnished ∧ 0 < maze.nFruits := by
  have room := furnished.fruited.room x y inside fruit
  have empty : hasFruit (maze.get x y &&& ~~~mazeFruit) = false := by
    rw [hasFruit, UInt8.and_assoc]
    simp
  have lowered : (maze.put x y (maze.get x y &&& ~~~mazeFruit)).count hasFruit + 1 =
      maze.count hasFruit := count_put room fruit empty
  have counted := furnished.fruited.nFruits
  refine ⟨⟨⟨fun u v bound found => ?_, ?_⟩, fun u v bound exit => ?_⟩, by omega⟩
  · by_cases here : u = x ∧ v = y
    · rw [here.1, here.2]
      exact room
    · rw [get_eaten_of_ne inside bound here] at found
      exact furnished.fruited.room u v bound found
  · show maze.nFruits - 1 = ((maze.put x y (maze.get x y &&& ~~~mazeFruit)).count hasFruit : Int)
    omega
  · refine furnished.exit u v bound ?_
    by_cases here : u = x ∧ v = y
    · rw [here.1, here.2, get_eaten_self, UInt8.and_assoc] at exit
      rwa [here.1, here.2]
    · rwa [get_eaten_of_ne inside bound here] at exit

/-- The eaten fruit changes its own block, and the last one that of the exit. -/
theorem Furnished.findBlock_eaten (furnished : maze.Furnished) {x y u v : Nat}
    (wide : 0 < maze.xDim) (inside : u ≤ 2 * maze.xDim) (positive : 0 < maze.nFruits)
    (apart : maze.mazeIndex u v ≠ maze.mazeIndex x y)
    (hidden : (maze.eaten x y).nFruits = 0 → ¬ (u = maze.exitX ∧ v = maze.exitY)) :
    findBlock (maze.eaten x y) u v = findBlock maze u v := by
  refine findBlock_congr rfl (get_put_of_index_ne apart)
    (put_walls (by rw [UInt8.and_assoc]; rfl)) fun exit => ?_
  have place := furnished.exit_le wide inside exit
  constructor
  · intro last
    exact absurd place (hidden last)
  · intro last
    omega

end Maze

/-- The scene has the size and the window of another, a furnished maze and a true picture. -/
structure Follows (blocks : Blocks) (start scene : Maze × Display) : Prop where
  xDim : scene.1.xDim = start.1.xDim
  yDim : scene.1.yDim = start.1.yDim
  img3Off : scene.2.img3Off = start.2.img3Off
  showX : scene.2.showX = start.2.showX
  showY : scene.2.showY = start.2.showY
  furnished : scene.1.Furnished
  shown : Shows scene.2.build scene.2.address scene.2.window (pixelOf blocks scene.1)

/-- The window ends before the column behind the right boundary. -/
structure Within (scene : Maze × Display) : Prop where
  wide : 0 < scene.1.xDim
  right : scene.2.showX + scrollXDim ≤ (2 * scene.1.xDim + 1) * blockXDim

/-- The window does not show the cell of a location at another location. -/
def Alone (scene : Maze × Display) (x y : Nat) : Prop :=
  ∀ pixel ∈ scene.2.window, scene.1.mazeIndex (pixel.1 / blockXDim) (pixel.2 / blockYDim) =
    scene.1.mazeIndex x y → pixel.1 / blockXDim = x ∧ pixel.2 / blockYDim = y

theorem Within.column {scene : Maze × Display} (within : Within scene) {pixel : Nat × Nat}
    (member : pixel ∈ scene.2.window) : pixel.1 / blockXDim ≤ 2 * scene.1.xDim := by
  have bound := member.1.2
  have right := within.right
  dsimp only [scrollXDim, blockXDim] at *
  omega

/-- An inner location is alone in the window. -/
theorem Within.alone {scene : Maze × Display} (within : Within scene) {x y : Nat} (left : x ≠ 0)
    (right : x < 2 * scene.1.xDim) : Alone scene x y := by
  intro pixel member same
  rcases mazeIndex_alias within.wide (within.column member) right.le same with
    here | ⟨_, edge⟩ | ⟨_, edge⟩
  · exact here
  · omega
  · omega

namespace Follows

variable {blocks : Blocks} {start scene : Maze × Display}

theorem within (follows : Follows blocks start scene) (within : Within start) : Within scene :=
  ⟨follows.xDim ▸ within.wide, by rw [follows.xDim, follows.showX]; exact within.right⟩

theorem alone (follows : Follows blocks start scene) {x y : Nat} (alone : Alone start x y) :
    Alone scene x y := by
  intro pixel member same
  have seen : pixel ∈ start.2.window := by
    rwa [Display.window, follows.showX, follows.showY] at member
  rw [mazeIndex, mazeIndex, follows.xDim] at same
  exact alone pixel seen same

/-- A change of the maze may redraw only what looks different. -/
theorem redraw (follows : Follows blocks start scene) {maze : Maze} {display : Display}
    {drawn : Set (Nat × Nat)} (xDim : maze.xDim = scene.1.xDim) (yDim : maze.yDim = scene.1.yDim)
    (furnished : maze.Furnished) (draws : scene.2.Draws display drawn (pixelOf blocks maze))
    (within : drawn ⊆ scene.2.window)
    (same : ∀ pixel ∈ scene.2.window, pixel ∉ drawn →
      findBlock maze (pixel.1 / blockXDim) (pixel.2 / blockYDim) =
        findBlock scene.1 (pixel.1 / blockXDim) (pixel.2 / blockYDim)) :
    Follows blocks start (maze, display) where
  xDim := xDim.trans follows.xDim
  yDim := yDim.trans follows.yDim
  img3Off := draws.img3Off.trans follows.img3Off
  showX := draws.showX.trans follows.showX
  showY := draws.showY.trans follows.showY
  furnished := furnished
  shown := by
    have kept : Shows scene.2.build scene.2.address (scene.2.window \ drawn)
        (pixelOf blocks maze) := by
      refine (follows.shown.mono Set.sdiff_subset).congr fun pixel member => ?_
      rw [pixelOf, pixelOf, same pixel member.1 member.2]
    refine draws.completes kept ?_ within
    rw [Set.sdiff_union_self]
    exact Set.subset_union_left

/-- An unveiled location is drawn again wherever it is seen. -/
theorem unveilSpace (follows : Follows blocks start scene) (within : Within start) {x y : Int}
    (alone : ∀ u v : Nat, x = u → u ≤ 2 * start.1.xDim → Alone start u v) :
    Follows blocks start (unveilSpace blocks x y scene) := by
  rw [Mp2.unveilSpace]
  dsimp only
  split_ifs with outside reached
  · exact follows
  · exact follows
  · have inside : x.toNat ≤ 2 * scene.1.xDim := by omega
    have clear := follows.alone (alone x.toNat y.toNat (by omega) (by rw [← follows.xDim]; omega))
    refine follows.redraw rfl rfl
      (follows.furnished.put_reach (follows.within within).wide inside)
      (Display.drawFullBlock_draws ..) (scene.2.block_subset _ _) fun pixel member apart => ?_
    have other : scene.1.mazeIndex (pixel.1 / blockXDim) (pixel.2 / blockYDim) ≠
        scene.1.mazeIndex x.toNat y.toNat := fun same => apart ⟨member, clear pixel member same⟩
    exact findBlock_congr rfl (get_put_of_index_ne other)
      (put_walls (or_and_of_disjoint _ (by decide))) fun _ => Iff.rfl

/-- An eaten fruit is drawn again, and so is the exit after the last one. -/
theorem checkForFruit (follows : Follows blocks start scene) (within : Within start) (x y : Nat) :
    Follows blocks start (checkForFruit blocks x y scene).2 := by
  rw [Mp2.checkForFruit]
  dsimp only
  by_cases outside : 2 * scene.1.xDim ≤ x ∨ 2 * scene.1.yDim ≤ y
  · rw [if_pos outside]
    exact follows
  · rw [if_neg outside]
    by_cases fruit : ((scene.1.get x y &&& mazeFruit) / mazeFruit1).toNat ≠ 0
    · rw [if_pos fruit]
      have found : hasFruit (scene.1.get x y) = true :=
        decide_eq_true fun bare => fruit ((fnum_eq_zero _).2 bare)
      have inside : x < 2 * scene.1.xDim := by omega
      have odd := (follows.furnished.fruited.room x y inside found).1
      obtain ⟨furnished, positive⟩ := follows.furnished.eaten inside found
      have fits := follows.within within
      have clear : Alone scene x y := fits.alone (by omega) inside
      change Follows blocks start (scene.1.eaten x y, Display.drawFullBlock
        (if (scene.1.eaten x y).nFruits = 0 then scene.2.drawFullBlock (scene.1.exitX * blockXDim)
          (scene.1.exitY * blockYDim) (blocks (findBlock (scene.1.eaten x y) scene.1.exitX
            scene.1.exitY)) else scene.2) (x * blockXDim) (y * blockYDim)
        (blocks (findBlock (scene.1.eaten x y) x y)))
      by_cases last : (scene.1.eaten x y).nFruits = 0
      · rw [if_pos last]
        refine follows.redraw rfl rfl furnished
          (scene.2.drawFullBlock_draws_two blocks (scene.1.eaten x y) _ _ x y)
          (Set.union_subset (scene.2.block_subset _ _) (scene.2.block_subset _ _))
          fun pixel member apart => ?_
        exact follows.furnished.findBlock_eaten fits.wide (fits.column member) positive
          (fun same => apart (.inr ⟨member, clear pixel member same⟩))
          fun _ place => apart (.inl ⟨member, place⟩)
      · rw [if_neg last]
        refine follows.redraw rfl rfl furnished (scene.2.drawFullBlock_draws blocks _ x y)
          (scene.2.block_subset x y) fun pixel member apart => ?_
        exact follows.furnished.findBlock_eaten fits.wide (fits.column member) positive
          (fun same => apart ⟨member, clear pixel member same⟩)
          fun noFruit => absurd noFruit last
    · rw [if_neg fruit]
      exact follows

end Follows

end ComputerSystems.Mp2
