import ComputerSystems.Construction.Mp2.FruitCalls
import ComputerSystems.Proof.Mp2.MazePicture

namespace ComputerSystems.Mp2

open Library

namespace Maze

/-- The locations with fruit, down to the lower right corner that is stored below the maze. -/
def fruitCells (maze : Maze) : Finset (Nat × Nat) :=
  (Finset.range (2 * maze.xDim) ×ˢ Finset.range (2 * maze.yDim + 2)).filter fun cell =>
    hasFruit (maze.get cell.1 cell.2) = true

/-- The fruits are counted, and the recorded lattice point has the only exit. -/
structure Accounted (maze : Maze) : Prop where
  wide : 0 < maze.xDim
  high : 0 < maze.yDim
  furnished : maze.Furnished
  exitRoom : maze.Room maze.exitX maze.exitY
  exit : maze.get maze.exitX maze.exitY &&& mazeExit ≠ 0

variable {maze : Maze}

/-- Fruit lies on lattice points only, so that they count all of it. -/
theorem Fruited.card_fruitCells (fruited : maze.Fruited) :
    maze.nFruits = maze.fruitCells.card := by
  rw [fruited.nFruits, count]
  refine congrArg Nat.cast (Finset.card_nbij (fun point => (point.1 * 2 + 1, point.2 * 2 + 1))
    (fun point member => ?_) (fun point _ other _ same => ?_) fun cell member => ?_)
  · obtain ⟨bounds, found⟩ := Finset.mem_filter.1 member
    rw [Finset.mem_product, Finset.mem_range, Finset.mem_range] at bounds
    refine Finset.mem_filter.2 ⟨Finset.mem_product.2 ⟨Finset.mem_range.2 ?_,
      Finset.mem_range.2 ?_⟩, found⟩
    · dsimp only
      omega
    · dsimp only
      omega
  · have columns := congrArg Prod.fst same
    have rows := congrArg Prod.snd same
    dsimp only at columns rows
    exact Prod.ext (by omega) (by omega)
  · obtain ⟨bounds, found⟩ := Finset.mem_filter.1 member
    obtain ⟨oddX, oddY, inside, below⟩ :=
      fruited.room _ _ (Finset.mem_range.1 (Finset.mem_product.1 bounds).1) found
    have column : cell.1 / 2 * 2 + 1 = cell.1 := by omega
    have row : cell.2 / 2 * 2 + 1 = cell.2 := by omega
    refine ⟨(cell.1 / 2, cell.2 / 2), Finset.mem_filter.2 ⟨Finset.mem_product.2
      ⟨Finset.mem_range.2 ?_, Finset.mem_range.2 ?_⟩, ?_⟩, Prod.ext column row⟩
    · dsimp only
      omega
    · dsimp only
      omega
    · rwa [column, row]

/-- The exit is placed on a lattice point. -/
theorem placeExit_exit {fruited : Maze} {random : Nat → Nat} {fuel drawn : Nat}
    (wide : 0 < maze.xDim) (high : 0 < maze.yDim)
    (placed : placeExit random fuel fruited drawn = some maze) :
    maze.Room maze.exitX maze.exitY ∧ maze.get maze.exitX maze.exitY &&& mazeExit ≠ 0 := by
  rw [placeExit] at placed
  obtain ⟨⟨x, y, last⟩, picked, result⟩ := Option.map_eq_some_iff.1 placed
  cases result
  have room : fruited.Room x y ∧ _ := pick_spec wide high picked
  refine ⟨room.1, ?_⟩
  show (fruited.put x y (fruited.get x y ||| mazeExit)).get x y &&& mazeExit ≠ 0
  rw [get_put_self]
  exact or_and_ne_zero (fruited.get x y) (by decide)

theorem makeMaze_accounted {fuel : Nat} {random : Nat → Nat} {xDim yDim startFruits : Nat}
    {before : Maze} (made : makeMaze fuel random xDim yDim startFruits before = some (0, maze)) :
    maze.Accounted := by
  obtain ⟨wide, high, columns, rows, furnished⟩ := makeMaze_furnished made
  replace wide : 0 < maze.xDim := columns ▸ lt_of_lt_of_le (by decide) wide
  replace high : 0 < maze.yDim := rows ▸ lt_of_lt_of_le (by decide) high
  obtain ⟨_, _, _, fruited, last, _, _, placed⟩ := makeMaze_stages made
  obtain ⟨room, exit⟩ := placeExit_exit wide high placed
  exact ⟨wide, high, furnished, room, exit⟩

namespace Accounted

variable {blocks : Blocks} {scene next : Maze × Display}

/-- The exit may lie under the new fruit. -/
theorem addAFruit (accounted : scene.1.Accounted) {random : Nat → Nat} {fuel : Nat}
    {result : Int × Maze × Display}
    (added : Mp2.addAFruit blocks random fuel scene = some result) : result.2.1.Accounted := by
  rw [Mp2.addAFruit] at added
  obtain ⟨⟨x, y, drawn⟩, picked, shape⟩ := Option.map_eq_some_iff.1 added
  cases shape
  obtain ⟨wide, high, ⟨fruited, only⟩, exitRoom, exit⟩ := accounted
  obtain ⟨room, stop⟩ := pick_spec wide high picked
  obtain ⟨some_fruit, no_exit⟩ := fruit_bits (random drawn)
  dsimp only
  generalize UInt8.ofNat (random drawn % numFruitTypes + 1) * mazeFruit1 = fruit
    at some_fruit no_exit ⊢
  have same (u v : Nat) (bound : u < 2 * scene.1.xDim) :
      (scene.1.planted x y fruit).get u v &&& mazeExit = scene.1.get u v &&& mazeExit := by
    by_cases here : u = x ∧ v = y
    · rw [here.1, here.2, get_planted_self, or_and_of_disjoint _ no_exit]
    · rw [get_planted_of_ne room.2.2.1 bound here]
  refine ⟨wide, high, ⟨fruited.planted room (of_decide_eq_true stop) some_fruit,
    fun u v bound found => only u v bound ?_⟩, exitRoom, ?_⟩
  · rwa [← same u v bound]
  · show (scene.1.planted x y fruit).get scene.1.exitX scene.1.exitY &&& mazeExit ≠ 0
    rwa [same _ _ exitRoom.2.2.1]

theorem checkForFruit (accounted : scene.1.Accounted) (x y : Nat) :
    (Mp2.checkForFruit blocks x y scene).2.1.Accounted := by
  rw [Mp2.checkForFruit]
  dsimp only
  by_cases outside : 2 * scene.1.xDim ≤ x ∨ 2 * scene.1.yDim ≤ y
  · rw [if_pos outside]
    exact accounted
  · rw [if_neg outside]
    by_cases fruit : ((scene.1.get x y &&& mazeFruit) / mazeFruit1).toNat ≠ 0
    · rw [if_pos fruit]
      obtain ⟨wide, high, furnished, exitRoom, exit⟩ := accounted
      have inside : x < 2 * scene.1.xDim := by omega
      have found : hasFruit (scene.1.get x y) = true :=
        decide_eq_true fun bare => fruit ((fnum_eq_zero _).2 bare)
      refine ⟨wide, high, (furnished.eaten inside found).1, exitRoom, ?_⟩
      show (scene.1.eaten x y).get scene.1.exitX scene.1.exitY &&& mazeExit ≠ 0
      by_cases here : scene.1.exitX = x ∧ scene.1.exitY = y
      · rw [here.1, here.2] at exit ⊢
        rwa [get_eaten_self, UInt8.and_assoc]
      · rwa [get_eaten_of_ne inside exitRoom.2.2.1 here]
    · rw [if_neg fruit]
      exact accounted

theorem unveilSpace (accounted : scene.1.Accounted) (x y : Int) :
    (Mp2.unveilSpace blocks x y scene).1.Accounted := by
  rw [Mp2.unveilSpace]
  dsimp only
  split_ifs with outside reached
  · exact accounted
  · exact accounted
  · obtain ⟨wide, high, furnished, exitRoom, exit⟩ := accounted
    refine ⟨wide, high, furnished.put_reach wide (by omega), exitRoom, ?_⟩
    show (scene.1.put x.toNat y.toNat _).get scene.1.exitX scene.1.exitY &&& mazeExit ≠ 0
    by_cases here : scene.1.mazeIndex scene.1.exitX scene.1.exitY =
        scene.1.mazeIndex x.toNat y.toNat
    · rw [Maze.get, here] at exit
      show Function.update scene.1.cells _ _ (scene.1.mazeIndex _ _) &&& mazeExit ≠ 0
      rw [here, Function.update_self, or_and_of_disjoint _ (by decide)]
      exact exit
    · rwa [get_put_of_index_ne here]

theorem step (accounted : scene.1.Accounted) {call : FruitCall}
    (stepped : fruitStep blocks scene call = .ok next) : next.1.Accounted := by
  cases call with
  | addAFruit random fuel =>
      rw [fruitStep] at stepped
      cases added : Mp2.addAFruit blocks random fuel scene with
      | none =>
          rw [added] at stepped
          cases stepped
      | some result =>
          rw [added] at stepped
          cases stepped
          exact accounted.addAFruit added
  | checkForFruit x y =>
      cases stepped
      rw [checkForFruitAt]
      split_ifs
      · exact accounted
      · exact accounted.checkForFruit x.toNat y.toNat
  | unveilSpace x y =>
      cases stepped
      exact accounted.unveilSpace x y

/-- Only the recorded lattice point wins, and only without fruit. -/
theorem win_iff {maze : Maze} (accounted : maze.Accounted) (x y : Int) :
    checkForWinAt maze x y = true ↔
      (x = maze.exitX ∧ y = maze.exitY) ∧ maze.fruitCells = ∅ := by
  obtain ⟨_, _, ⟨fruited, only⟩, exitRoom, exit⟩ := accounted
  have counted : maze.nFruits = 0 ↔ maze.fruitCells = ∅ := by
    rw [fruited.card_fruitCells, Nat.cast_eq_zero, Finset.card_eq_zero]
  rw [checkForWinAt, checkForWin, ← counted]
  simp only [Bool.and_eq_true, decide_eq_true_eq]
  constructor
  · rintro ⟨⟨left, top⟩, ⟨⟨inside, below⟩, empty⟩, found⟩
    obtain ⟨_, column, row⟩ := only x.toNat y.toNat inside found
    exact ⟨⟨by omega, by omega⟩, empty⟩
  · rintro ⟨⟨rfl, rfl⟩, empty⟩
    exact ⟨⟨by omega, by omega⟩, ⟨⟨exitRoom.2.2.1, exitRoom.2.2.2⟩, empty⟩, exit⟩

end Accounted

end Maze

/-- After the generation and any run of calls the number of fruits is that of the cells with fruit,
and one cell is the exit. -/
theorem fruits_accounted {blocks : Blocks} {fuel : Nat} {random : Nat → Nat}
    {xDim yDim startFruits : Nat} {before maze : Maze} {display : Display}
    {final : Maze × Display} {calls : List FruitCall}
    (made : makeMaze fuel random xDim yDim startFruits before = some (0, maze))
    (reached : run (fruitStep blocks) (maze, display) calls = .ok final) :
    final.1.nFruits = final.1.fruitCells.card ∧
      (∀ x y, x ≤ 2 * final.1.xDim →
        ((final.1.get x y &&& mazeFruit) / mazeFruit1).toNat ≤ 7 ∧
          (((final.1.get x y &&& mazeFruit) / mazeFruit1).toNat ≠ 0 → x % 2 = 1 ∧ y % 2 = 1)) ∧
      ∃ u v, (∀ x y, x ≤ 2 * final.1.xDim →
          (final.1.get x y &&& mazeExit ≠ 0 ↔ x = u ∧ y = v)) ∧
        ∀ x y : Int, checkForWinAt final.1 x y = true ↔
          (x = u ∧ y = v) ∧ final.1.fruitCells = ∅ := by
  have accounted : final.1.Accounted :=
    run_invariant (fun scene => scene.1.Accounted) (fun _ _ _ accounted _ stepped =>
      accounted.step stepped) (Maze.makeMaze_accounted made) (along_true _ _ calls) reached
  obtain ⟨wide, _, furnished, exitRoom, exit⟩ := id accounted
  refine ⟨furnished.fruited.card_fruitCells, fun x y inside => ⟨?_, fun fruit => ?_⟩,
    final.1.exitX, final.1.exitY, fun x y inside => ⟨furnished.exit_le wide inside, ?_⟩,
    accounted.win_iff⟩
  · have all : ∀ bits : Fin 256, (((⟨⟨bits⟩⟩ : UInt8) &&& mazeFruit) / mazeFruit1).toNat ≤ 7 := by
      decide +kernel
    exact all (final.1.get x y).toBitVec.toFin
  · have found : hasFruit (final.1.get x y) = true :=
      decide_eq_true fun bare => fruit ((fnum_eq_zero _).2 bare)
    rcases inside.lt_or_eq with less | rfl
    · have room := furnished.fruited.room x y less found
      exact ⟨room.1, room.2.1⟩
    · rw [Maze.get_right] at found
      have odd := (furnished.fruited.room 0 (y + 1) (by omega) found).1
      exact absurd odd (by decide)
  · rintro ⟨rfl, rfl⟩
    exact exit

/-- All locations around the corner are tried and unveiled, and a fruit comes back. -/
def errands : List FruitCall :=
  [.checkForFruit 1 1, .unveilSpace (-1) 3, .unveilSpace 28 3, .addAFruit snake 5,
    .checkForFruit 27 15, .checkForFruit 28 3]

theorem fruits_accounted_errands : ∃ maze final,
    makeMaze 200 snake mazeMinXDim mazeMinYDim 1 smallest = some (0, maze) ∧
      run (fruitStep plainBlocks) (maze, newGame.display) errands = .ok final ∧
        final.1.nFruits = final.1.fruitCells.card := by
  have finishes : ((makeMaze 200 snake mazeMinXDim mazeMinYDim 1 smallest).map fun made =>
      made.1 = 0 && runCheck (fruitStep plainBlocks) (made.2, newGame.display) errands
        fun _ => true) = some true := by decide +kernel
  obtain ⟨⟨result, maze⟩, made, passed⟩ := Option.map_eq_some_iff.1 finishes
  rw [Bool.and_eq_true] at passed
  obtain rfl : result = 0 := of_decide_eq_true passed.1
  obtain ⟨final, reached, _⟩ := runCheck_sound passed.2
  exact ⟨maze, final, made, reached, (fruits_accounted made reached).1⟩

end ComputerSystems.Mp2
