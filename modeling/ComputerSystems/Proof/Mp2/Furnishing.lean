import ComputerSystems.Proof.Mp2.Connected

namespace ComputerSystems.Mp2

/-- The number of a fruit is zero only without fruit. -/
theorem fnum_eq_zero (cell : UInt8) :
    ((cell &&& mazeFruit) / mazeFruit1).toNat = 0 ↔ cell &&& mazeFruit = 0 := by
  have all : ∀ bits : Fin 256, (((⟨⟨bits⟩⟩ : UInt8) &&& mazeFruit) / mazeFruit1).toNat = 0 ↔
      (⟨⟨bits⟩⟩ : UInt8) &&& mazeFruit = 0 := by decide +kernel
  exact all cell.toBitVec.toFin

/-- The new fruits of a maze set only fruit bits. -/
theorem fruit_bits (number : Nat) :
    let fruit := UInt8.ofNat (number % numFruitTypes + 1) * mazeFruit1
    fruit &&& mazeFruit ≠ 0 ∧ fruit &&& mazeExit = 0 := by
  have below : number % numFruitTypes < 7 := Nat.mod_lt number (by decide)
  intro fruit
  dsimp only [fruit]
  generalize number % numFruitTypes = kind at below
  interval_cases kind <;> decide

def hasFruit (cell : UInt8) : Bool := cell &&& mazeFruit ≠ 0

namespace Maze

variable {maze : Maze}

/-- The change of one lattice point that enters the kind raises the count by one. -/
theorem count_put_new {kind : UInt8 → Bool} {x y : Nat} {value : UInt8} (room : maze.Room x y)
    (before : kind (maze.get x y) = false) (after : kind value = true) :
    (maze.put x y value).count kind = maze.count kind + 1 := by
  have back : (maze.put x y value).put x y (maze.get x y) = maze := by
    simp only [put, get, mazeIndex, Function.update_idem, Function.update_eq_self]
  have lowered : ((maze.put x y value).put x y (maze.get x y)).count kind + 1 =
      (maze.put x y value).count kind :=
    count_put room (by rwa [get_put_self]) before
  rw [back] at lowered
  exact lowered.symm

/-- A loop over different cells changes each of them once. -/
theorem foldl_put_get (change : UInt8 → UInt8) {points : List (Nat × Nat)} (nodup : points.Nodup)
    (inside : ∀ point ∈ points, point.1 < 2 * maze.xDim) :
    let after := points.foldl (fun maze point =>
      maze.put point.1 point.2 (change (maze.get point.1 point.2))) maze
    after = { maze with cells := after.cells } ∧ ∀ x y, x < 2 * maze.xDim →
      after.get x y = if (x, y) ∈ points then change (maze.get x y) else maze.get x y := by
  induction points generalizing maze with
  | nil =>
      refine ⟨rfl, fun x y _ => ?_⟩
      rw [if_neg List.not_mem_nil]
      rfl
  | cons point rest ih =>
      obtain ⟨absent, distinct⟩ := List.nodup_cons.1 nodup
      have here := inside point List.mem_cons_self
      have later : ∀ other ∈ rest, other.1 <
          2 * (maze.put point.1 point.2 (change (maze.get point.1 point.2))).xDim :=
        fun other member => inside other (List.mem_cons_of_mem point member)
      obtain ⟨frame, kept⟩ := ih distinct later
      refine ⟨frame, fun x y bound => ?_⟩
      rw [List.foldl_cons, kept x y bound]
      by_cases same : x = point.1 ∧ y = point.2
      · obtain ⟨rfl, rfl⟩ := same
        rw [if_neg absent, get_put_self, if_pos List.mem_cons_self]
      · have other : (x, y) ∈ point :: rest ↔ (x, y) ∈ rest := by
          rw [List.mem_cons, or_iff_right fun equal => same (Prod.mk.inj equal)]
        rw [get_put_of_ne here bound same]
        exact if_congr other.symm rfl rfl

theorem forCells_get (change : UInt8 → UInt8) {xs ys : List Nat} (columns : xs.Nodup)
    (rows : ys.Nodup) (inside : ∀ x ∈ xs, x < 2 * maze.xDim) :
    forCells xs ys change maze = { maze with cells := (forCells xs ys change maze).cells } ∧
      ∀ x y, x < 2 * maze.xDim → (forCells xs ys change maze).get x y =
        if x ∈ xs ∧ y ∈ ys then change (maze.get x y) else maze.get x y := by
  have loops : forCells xs ys change maze = (xs ×ˢ ys).foldl (fun maze point =>
      maze.put point.1 point.2 (change (maze.get point.1 point.2))) maze := by
    show _ = (xs.product ys).foldl _ maze
    rw [forCells, List.product, List.foldl_flatMap]
    simp only [List.foldl_map]
  obtain ⟨frame, kept⟩ := foldl_put_get change (columns.product rows)
    fun point member => inside point.1 (List.mem_product.1 member).1
  rw [loops]
  refine ⟨frame, fun x y bound => ?_⟩
  rw [kept x y bound]
  exact if_congr List.pair_mem_product rfl rfl

/-- The fruits lie on lattice points and are counted. -/
structure Fruited (maze : Maze) : Prop where
  room : ∀ x y, x < 2 * maze.xDim → hasFruit (maze.get x y) = true → maze.Room x y
  nFruits : maze.nFruits = maze.count hasFruit

/-- The exit is the recorded lattice point. -/
structure Furnished (maze : Maze) : Prop where
  fruited : maze.Fruited
  exit : ∀ x y, x < 2 * maze.xDim → maze.get x y &&& mazeExit ≠ 0 →
    maze.Room x y ∧ x = maze.exitX ∧ y = maze.exitY

/-- New bits of one cell keep the fruits when they are no fruit bits. -/
theorem Fruited.put_or (fruited : maze.Fruited) {x y : Nat} {bits : UInt8}
    (inside : x < 2 * maze.xDim) (plain : bits &&& mazeFruit = 0) :
    (maze.put x y (maze.get x y ||| bits)).Fruited := by
  have same (u v : Nat) (bound : u < 2 * maze.xDim) :
      hasFruit ((maze.put x y (maze.get x y ||| bits)).get u v) = hasFruit (maze.get u v) := by
    by_cases here : u = x ∧ v = y
    · rw [here.1, here.2, get_put_self, hasFruit, hasFruit, or_and_of_disjoint _ plain]
    · rw [get_put_of_ne inside bound here]
  have count : (maze.put x y (maze.get x y ||| bits)).count hasFruit = maze.count hasFruit :=
    count_congr rfl rfl fun u v room => same u v room.2.2.1
  refine ⟨fun u v bound fruit => ?_, ?_⟩
  · rw [same u v bound] at fruit
    exact fruited.room u v bound fruit
  · rw [count]
    exact fruited.nFruits

/-- A maze without fruit and exit. -/
def Bare (maze : Maze) : Prop :=
  ∀ x y, x < 2 * maze.xDim → maze.get x y &&& mazeFruit = 0 ∧ maze.get x y &&& mazeExit = 0

theorem Bare.fruited (bare : maze.Bare) (none_yet : maze.nFruits = 0) : maze.Fruited where
  room x y bound fruit := absurd (bare x y bound).1 (of_decide_eq_true fruit)
  nFruits := by
    have empty : maze.count hasFruit = 0 := by
      rw [count, Finset.card_eq_zero, Finset.filter_eq_empty_iff]
      intro point member
      rw [Finset.mem_product, Finset.mem_range, Finset.mem_range] at member
      simp [hasFruit, (bare (point.1 * 2 + 1) (point.2 * 2 + 1) (by omega)).1]
    rw [none_yet, empty, Nat.cast_zero]

/-- The coordinates of the lattice points. -/
def odd (dim : Nat) : List Nat := (List.range dim).map fun index => index * 2 + 1

theorem mem_odd {dim place : Nat} : place ∈ odd dim ↔ place % 2 = 1 ∧ place < 2 * dim := by
  rw [odd, List.mem_map]
  constructor
  · rintro ⟨index, member, rfl⟩
    have bound := List.mem_range.1 member
    omega
  · rintro ⟨parity, bound⟩
    exact ⟨place / 2, List.mem_range.2 (by omega), by omega⟩

theorem nodup_odd (dim : Nat) : (odd dim).Nodup :=
  List.nodup_range.map fun first second same => by omega

/-- The maze without its marks and inner walls. -/
def cleared (maze : Maze) : Maze :=
  forCells (List.range' 1 (2 * maze.xDim - 1)) (List.range' 1 (2 * maze.yDim - 1))
    (fun _ => mazeNone)
    (forCells (odd maze.xDim) (odd maze.yDim) (fun cell => cell &&& ~~~mazeReach) maze)

/-- Only the boundary is left of the walls. -/
theorem Dug.get_cleared (dug : maze.Dug) :
    (maze.cleared.xDim = maze.xDim ∧ maze.cleared.yDim = maze.yDim) ∧
      ∀ x y, x < 2 * maze.xDim → maze.cleared.get x y =
        if 0 < x ∧ 0 < y ∧ y < 2 * maze.yDim then mazeNone else mazeWall := by
  rw [cleared]
  obtain ⟨frame, kept⟩ := forCells_get (fun cell => cell &&& ~~~mazeReach) (nodup_odd maze.xDim)
    (nodup_odd maze.yDim) fun x member => (mem_odd.1 member).2
  generalize forCells (odd maze.xDim) (odd maze.yDim) (fun cell => cell &&& ~~~mazeReach) maze =
    unmarked at *
  have columns : unmarked.xDim = maze.xDim := by rw [frame]
  have rows : unmarked.yDim = maze.yDim := by rw [frame]
  have inner : ∀ x ∈ List.range' 1 (2 * maze.xDim - 1), x < 2 * unmarked.xDim := by
    intro x member
    have bounds := List.mem_range'_1.1 member
    omega
  have distinct : (List.range' 1 (2 * maze.yDim - 1)).Nodup := List.nodup_range'
  obtain ⟨godFrame, opened⟩ := forCells_get (fun _ => mazeNone) List.nodup_range' distinct inner
  generalize forCells (List.range' 1 (2 * maze.xDim - 1)) (List.range' 1 (2 * maze.yDim - 1))
    (fun _ => mazeNone) unmarked = god at *
  refine ⟨⟨by rw [godFrame, columns], by rw [godFrame, rows]⟩, fun x y bound => ?_⟩
  rw [opened x y (columns ▸ bound)]
  have inside_iff : (x ∈ List.range' 1 (2 * maze.xDim - 1) ∧
      y ∈ List.range' 1 (2 * maze.yDim - 1)) ↔ 0 < x ∧ 0 < y ∧ y < 2 * maze.yDim := by
    rw [List.mem_range'_1, List.mem_range'_1]
    omega
  by_cases inside : 0 < x ∧ 0 < y ∧ y < 2 * maze.yDim
  · rw [if_pos inside, if_pos (inside_iff.2 inside)]
  · have outer : ¬ (x ∈ odd maze.xDim ∧ y ∈ odd maze.yDim) := by
      rw [mem_odd, mem_odd]
      omega
    rw [if_neg inside, if_neg (mt inside_iff.1 inside), kept x y bound, if_neg outer]
    exact dug.solid x y ⟨bound, by omega⟩

theorem Dug.bare (dug : maze.Dug) : maze.cleared.Bare := by
  obtain ⟨⟨columns, _⟩, cells⟩ := dug.get_cleared
  intro x y bound
  rw [cells x y (columns ▸ bound)]
  split_ifs
  · exact ⟨rfl, rfl⟩
  · exact ⟨rfl, rfl⟩

/-- The maze with a new fruit at a location. -/
def planted (maze : Maze) (x y : Nat) (fruit : UInt8) : Maze :=
  { maze.put x y (maze.get x y ||| fruit) with nFruits := maze.nFruits + 1 }

theorem get_planted_of_ne {x y u v : Nat} {fruit : UInt8} (inside : x < 2 * maze.xDim)
    (bound : u < 2 * maze.xDim) (apart : ¬ (u = x ∧ v = y)) :
    (maze.planted x y fruit).get u v = maze.get u v :=
  get_put_of_ne inside bound apart

theorem get_planted_self (x y : Nat) (fruit : UInt8) :
    (maze.planted x y fruit).get x y = maze.get x y ||| fruit :=
  maze.get_put_self x y (maze.get x y ||| fruit)

/-- A new fruit on a lattice point without fruit raises the number of fruits by one. -/
theorem Fruited.planted (fruited : maze.Fruited) {x y : Nat} {fruit : UInt8}
    (room : maze.Room x y) (free : maze.get x y &&& mazeFruit = 0)
    (some_fruit : fruit &&& mazeFruit ≠ 0) : (maze.planted x y fruit).Fruited := by
  have visible : hasFruit (maze.get x y ||| fruit) = true := by
    rw [hasFruit, or_and_mask, free, UInt8.zero_or]
    exact decide_eq_true some_fruit
  refine ⟨fun u v bound found => ?_, ?_⟩
  · by_cases here : u = x ∧ v = y
    · rw [here.1, here.2]
      exact room
    · rw [get_planted_of_ne room.2.2.1 bound here] at found
      exact fruited.room u v bound found
  · have raised : (maze.put x y (maze.get x y ||| fruit)).count hasFruit =
        maze.count hasFruit + 1 :=
      count_put_new room (by rw [hasFruit, free]; rfl) visible
    have counted := fruited.nFruits
    show maze.nFruits + 1 = ((maze.put x y (maze.get x y ||| fruit)).count hasFruit : Int)
    rw [raised, counted]
    push_cast
    rfl

/-- The maze has the size of another and its fruits are counted, but it has no exit yet. -/
structure Growing (before after : Maze) : Prop where
  xDim : after.xDim = before.xDim
  yDim : after.yDim = before.yDim
  fruited : after.Fruited
  exit : ∀ x y, x < 2 * after.xDim → after.get x y &&& mazeExit = 0

theorem addAFruitInternal_growing {before after : Maze} {random : Nat → Nat}
    {fuel drawn last : Nat} (wide : 0 < maze.xDim) (high : 0 < maze.yDim)
    (growing : Growing before maze)
    (added : addAFruitInternal random fuel maze drawn = some (after, last)) :
    Growing before after := by
  rw [addAFruitInternal] at added
  obtain ⟨⟨x, y, seen⟩, picked, result⟩ := Option.map_eq_some_iff.1 added
  cases result
  obtain ⟨room, stop⟩ := pick_spec wide high picked
  obtain ⟨some_fruit, no_exit⟩ := fruit_bits (random seen)
  generalize UInt8.ofNat (random seen % numFruitTypes + 1) * mazeFruit1 = fruit
    at some_fruit no_exit ⊢
  refine ⟨growing.xDim, growing.yDim,
    growing.fruited.planted room (of_decide_eq_true stop) some_fruit, fun u v bound => ?_⟩
  show (maze.planted x y fruit).get u v &&& mazeExit = 0
  by_cases here : u = x ∧ v = y
  · rw [here.1, here.2, get_planted_self, or_and_of_disjoint _ no_exit]
    exact growing.exit x y room.2.2.1
  · rw [get_planted_of_ne room.2.2.1 bound here]
    exact growing.exit u v bound

theorem addFruits_growing {before after : Maze} {random : Nat → Nat} {fuel count drawn last : Nat}
    (wide : 0 < before.xDim) (high : 0 < before.yDim) (growing : Growing before maze)
    (added : addFruits random fuel count maze drawn = some (after, last)) :
    Growing before after := by
  induction count generalizing maze drawn with
  | zero =>
      cases added
      exact growing
  | succ count ih =>
      rw [addFruits] at added
      cases first : addAFruitInternal random fuel maze drawn with
      | none =>
          rw [first] at added
          cases added
      | some result =>
          rw [first] at added
          exact ih (addAFruitInternal_growing (growing.xDim ▸ wide) (growing.yDim ▸ high) growing
            first) added

theorem placeExit_furnished {before after : Maze} {random : Nat → Nat} {fuel drawn : Nat}
    (wide : 0 < before.xDim) (high : 0 < before.yDim) (growing : Growing before maze)
    (placed : placeExit random fuel maze drawn = some after) :
    after.Furnished ∧ after.xDim = before.xDim ∧ after.yDim = before.yDim := by
  rw [placeExit] at placed
  obtain ⟨⟨x, y, last⟩, picked, result⟩ := Option.map_eq_some_iff.1 placed
  cases result
  obtain ⟨room, _⟩ := pick_spec (growing.xDim ▸ wide) (growing.yDim ▸ high) picked
  have fruited : (maze.put x y (maze.get x y ||| mazeExit)).Fruited :=
    growing.fruited.put_or room.2.2.1 (by decide)
  refine ⟨⟨⟨fruited.room, fruited.nFruits⟩, fun u v bound found => ?_⟩, growing.xDim, growing.yDim⟩
  by_cases here : u = x ∧ v = y
  · rw [here.1, here.2]
    exact ⟨room, rfl, rfl⟩
  · have kept : (maze.put x y (maze.get x y ||| mazeExit)).get u v = maze.get u v :=
      get_put_of_ne room.2.2.1 bound here
    exact absurd (growing.exit u v bound) (kept ▸ found)

/-- The generation digs a maze of an allowed size, clears it, adds the fruits and places the
exit. -/
theorem makeMaze_stages {fuel : Nat} {random : Nat → Nat} {xDim yDim startFruits : Nat}
    {before : Maze} (made : makeMaze fuel random xDim yDim startFruits before = some (0, maze)) :
    (mazeMinXDim ≤ xDim ∧ mazeMinYDim ≤ yDim) ∧
      ∃ (dug : Maze) (drawn : Nat) (fruited : Maze) (last : Nat),
      (dug.Dug ∧ dug.xDim = xDim ∧ dug.yDim = yDim) ∧
      addFruits random fuel startFruits { dug.cleared with nFruits := 0 } drawn =
        some (fruited, last) ∧
      placeExit random fuel fruited last = some maze := by
  rw [makeMaze] at made
  split_ifs at made with refused
  · cases made
  · have wide : mazeMinXDim ≤ xDim := by omega
    have high : mazeMinYDim ≤ yDim := by omega
    split at made
    next => cases made
    next dug drawn digging =>
      obtain ⟨⟨_, _, marked⟩, columns, rows⟩ :=
        digMaze_marked (le_trans (by decide) wide) (le_trans (by decide) high) digging
      dsimp only at made columns rows
      split at made
      next => cases made
      next fruited last adding =>
        obtain ⟨exited, placed, result⟩ := Option.map_eq_some_iff.1 made
        cases result
        refine ⟨⟨wide, high⟩, dug, drawn, fruited, last, ⟨marked.dug, columns, rows⟩, ?_, placed⟩
        rw [cleared, columns, rows]
        exact adding

/-- Every maze that the generation returns has the asked size, counted fruits and one exit. -/
theorem makeMaze_furnished {fuel : Nat} {random : Nat → Nat} {xDim yDim startFruits : Nat}
    {before : Maze} (made : makeMaze fuel random xDim yDim startFruits before = some (0, maze)) :
    mazeMinXDim ≤ xDim ∧ mazeMinYDim ≤ yDim ∧ maze.xDim = xDim ∧ maze.yDim = yDim ∧
      maze.Furnished := by
  obtain ⟨⟨wide, high⟩, dug, drawn, fruited, last, ⟨walls, digColumns, digRows⟩, added, placed⟩ :=
    makeMaze_stages made
  obtain ⟨⟨columns, rows⟩, _⟩ := walls.get_cleared
  have growing : Growing dug.cleared { dug.cleared with nFruits := 0 } :=
    ⟨rfl, rfl, @Bare.fruited { dug.cleared with nFruits := 0 } walls.bare rfl,
      fun x y bound => (walls.bare x y bound).2⟩
  have someColumn : 0 < dug.cleared.xDim := by
    rw [columns, digColumns]
    exact lt_of_lt_of_le (by decide) wide
  have someRow : 0 < dug.cleared.yDim := by
    rw [rows, digRows]
    exact lt_of_lt_of_le (by decide) high
  obtain ⟨furnished, lastColumns, lastRows⟩ :=
    placeExit_furnished someColumn someRow (addFruits_growing someColumn someRow growing added)
      placed
  exact ⟨wide, high, lastColumns.trans (columns.trans digColumns),
    lastRows.trans (rows.trans digRows), furnished⟩

end Maze

end ComputerSystems.Mp2
