import ComputerSystems.Proof.Mp2.LineBuffers

namespace ComputerSystems.Mp2

open Library

namespace Display

variable (display : Display)

/-- The place of a pixel in the build buffer. -/
def address (pixel : Nat × Nat) : Int :=
  display.img3Off + (pixel.1 / 4 : Nat) + (pixel.2 * scrollXWidth : Nat) +
    ((3 - pixel.1 % 4) * scrollSize : Nat)

/-- The pixels of the logical view window. -/
def window : Set (Nat × Nat) :=
  {pixel | (display.showX ≤ pixel.1 ∧ pixel.1 < display.showX + scrollXDim) ∧
    display.showY ≤ pixel.2 ∧ pixel.2 < display.showY + scrollYDim}

/-- Two pixels of the window do not share a place. -/
theorem address_injOn : Set.InjOn display.address display.window := by
  rintro ⟨x, y⟩ ⟨⟨left, right⟩, top, bottom⟩ ⟨u, v⟩ ⟨⟨otherLeft, otherRight⟩, otherTop, otherBottom⟩
    same
  simp only [address] at same
  dsimp only [scrollXDim, scrollYDim, scrollXWidth, scrollSize] at *
  have planes : x % 4 = u % 4 := by omega
  have columns : x = u ∧ y = v := by omega
  rw [columns.1, columns.2]

/-- The drawing leaves the window where it is. -/
structure Draws (before after : Display) (drawn : Set (Nat × Nat))
    (picture : Nat × Nat → UInt8) : Prop where
  img3Off : after.img3Off = before.img3Off
  showX : after.showX = before.showX
  showY : after.showY = before.showY
  paints : Paints before.build after.build before.address drawn picture

namespace Draws

variable {before middle after : Display} {kept drawn more : Set (Nat × Nat)}
variable {picture : Nat × Nat → UInt8}

theorem refl (display : Display) (picture : Nat × Nat → UInt8) :
    Draws display display ∅ picture :=
  ⟨rfl, rfl, rfl, .refl ..⟩

theorem address_eq (draws : Draws before after drawn picture) : after.address = before.address := by
  funext pixel
  rw [address, address, draws.img3Off]

theorem window_eq (draws : Draws before after drawn picture) : after.window = before.window := by
  rw [window, window, draws.showX, draws.showY]

/-- Two drawings of one picture in the window make one. -/
theorem trans (first : Draws before middle drawn picture) (second : Draws middle after more picture)
    (within : drawn ∪ more ⊆ before.window) : Draws before after (drawn ∪ more) picture where
  img3Off := second.img3Off.trans first.img3Off
  showX := second.showX.trans first.showX
  showY := second.showY.trans first.showY
  paints := by
    have last := second.paints
    rw [first.address_eq] at last
    exact first.paints.trans last (before.address_injOn.mono within)

/-- A drawing of all that is missing in the window makes it true. -/
theorem completes (draws : Draws before after drawn picture)
    (shows : Shows before.build before.address kept picture)
    (covers : before.window ⊆ kept ∪ drawn) (within : drawn ⊆ before.window) :
    Shows after.build after.address after.window picture := by
  rw [draws.address_eq, draws.window_eq]
  exact shows.paint draws.paints covers within before.address_injOn

end Draws

/-- The pixels of one line of a picture. -/
def vertical (x : Nat) : Set (Nat × Nat) :=
  {pixel | pixel.1 = x ∧ display.showY ≤ pixel.2 ∧ pixel.2 < display.showY + scrollYDim}

def horizontal (y : Nat) : Set (Nat × Nat) :=
  {pixel | (display.showX ≤ pixel.1 ∧ pixel.1 < display.showX + scrollXDim) ∧ pixel.2 = y}

def block (x y : Nat) : Set (Nat × Nat) :=
  {pixel | pixel ∈ display.window ∧ pixel.1 / blockXDim = x ∧ pixel.2 / blockYDim = y}

theorem block_subset (x y : Nat) : display.block x y ⊆ display.window :=
  fun _ member => member.1

theorem Draws.block_eq {before after : Display} {drawn : Set (Nat × Nat)}
    {picture : Nat × Nat → UInt8} (draws : Draws before after drawn picture) (x y : Nat) :
    after.block x y = before.block x y := by
  rw [block, block, draws.window_eq]

variable {display} (blocks : Blocks) (maze : Maze)

theorem vertical_subset {x : Nat} (inside : display.showX ≤ x ∧ x < display.showX + scrollXDim) :
    display.vertical x ⊆ display.window := by
  rintro pixel ⟨rfl, rows⟩
  exact ⟨inside, rows⟩

theorem horizontal_subset {y : Nat} (inside : display.showY ≤ y ∧ y < display.showY + scrollYDim) :
    display.horizontal y ⊆ display.window := by
  rintro pixel ⟨columns, rfl⟩
  exact ⟨columns, inside⟩

/-- A window that moved sideways has all but its new columns in common with the old one. -/
theorem window_subset_vertical {moved : Display} {x : Nat} (showY : moved.showY = display.showY)
    (columns : ∀ column, moved.showX ≤ column → column < moved.showX + scrollXDim →
      column = x ∨ display.showX ≤ column ∧ column < display.showX + scrollXDim) :
    moved.window ⊆ display.window ∪ moved.vertical x := by
  rintro pixel ⟨⟨left, right⟩, rows⟩
  rcases columns pixel.1 left right with new | old
  · exact .inr ⟨new, rows⟩
  · rw [showY] at rows
    exact .inl ⟨old, rows⟩

theorem window_subset_horizontal {moved : Display} {y : Nat} (showX : moved.showX = display.showX)
    (rows : ∀ row, moved.showY ≤ row → row < moved.showY + scrollYDim →
      row = y ∨ display.showY ≤ row ∧ row < display.showY + scrollYDim) :
    moved.window ⊆ display.window ∪ moved.horizontal y := by
  rintro pixel ⟨columns, top, bottom⟩
  rcases rows pixel.2 top bottom with new | old
  · exact .inr ⟨columns, new⟩
  · rw [showX] at columns
    exact .inl ⟨columns, old⟩

/-- The lines hold a pixel for each round of their loops. -/
theorem vertical_eq_iUnion {x : Nat} :
    display.vertical x = ⋃ done < scrollYDim, {(x, display.showY + done)} := by
  ext ⟨u, v⟩
  simp only [vertical, Set.mem_ofPred_eq, Set.mem_iUnion, Set.mem_singleton_iff, Prod.mk.injEq,
    exists_prop]
  constructor
  · rintro ⟨same, top, bottom⟩
    exact ⟨v - display.showY, by omega, same, by omega⟩
  · rintro ⟨done, early, same, rfl⟩
    exact ⟨same, by omega, by omega⟩

theorem horizontal_eq_iUnion {y : Nat} :
    display.horizontal y = ⋃ done < scrollXDim, {(display.showX + done, y)} := by
  ext ⟨u, v⟩
  simp only [horizontal, Set.mem_ofPred_eq, Set.mem_iUnion, Set.mem_singleton_iff, Prod.mk.injEq,
    exists_prop]
  constructor
  · rintro ⟨⟨left, right⟩, same⟩
    exact ⟨u - display.showX, by omega, by omega, same⟩
  · rintro ⟨done, early, rfl, same⟩
    exact ⟨⟨by omega, by omega⟩, same⟩

variable (display) in
theorem drawVertLine_draws {column : Nat} (inside : column < scrollXDim) :
    Draws display (display.drawVertLine blocks maze column)
      (display.vertical (column + display.showX)) (pixelOf blocks maze) := by
  have injective := display.address_injOn.mono (vertical_subset (x := column + display.showX)
    ⟨by omega, by omega⟩)
  rw [vertical_eq_iUnion] at injective ⊢
  let cursor (done : Nat) : Int := display.img3Off + ((column + display.showX) / 4 : Nat) +
    ((display.showY + done) * scrollXWidth : Nat)
  let body (i : Nat) (state : (Int → UInt8) × Int) : (Int → UInt8) × Int :=
    (Function.update state.1 (state.2 + ((3 - (column + display.showX) % 4) * scrollSize : Nat))
      (fillVertBuffer blocks maze (column + display.showX) display.showY i),
      state.2 + scrollXWidth)
  have rounds (done : Nat) (memory : Int → UInt8) (early : done < scrollYDim) :
      body done (memory, cursor done) =
      (Function.update memory (display.address (column + display.showX, display.showY + done))
        (pixelOf blocks maze (column + display.showX, display.showY + done)),
        cursor (done + 1)) := by
    dsimp only [body]
    rw [fillVertBuffer_eq blocks maze _ _ early]
    refine Prod.ext rfl ?_
    dsimp only [cursor, scrollXWidth]
    push_cast
    ring
  have start : cursor 0 = display.img3Off + ((column + display.showX) / 4 : Nat) +
    (display.showY * scrollXWidth : Nat) := rfl
  have painted := Paints.cursorLoop body cursor _ display.build rounds injective
  rw [start] at painted
  rw [drawVertLine, if_neg (not_le.2 inside)]
  refine ⟨rfl, rfl, rfl, ?_⟩
  dsimp only
  exact painted

variable (display) in
theorem drawHorizLine_draws {row : Nat} (inside : row < scrollYDim) :
    Draws display (display.drawHorizLine blocks maze row)
      (display.horizontal (row + display.showY)) (pixelOf blocks maze) := by
  have injective := display.address_injOn.mono (horizontal_subset (y := row + display.showY)
    ⟨by omega, by omega⟩)
  rw [horizontal_eq_iUnion] at injective ⊢
  let cursor (done : Nat) : Int × Nat := (display.img3Off + ((display.showX + done) / 4 : Nat) +
    ((row + display.showY) * scrollXWidth : Nat), 3 - (display.showX + done) % 4)
  let body (i : Nat) (state : (Int → UInt8) × Int × Nat) : (Int → UInt8) × Int × Nat :=
    let build := Function.update state.1 (state.2.1 + (state.2.2 * scrollSize : Nat))
      (fillHorizBuffer blocks maze display.showX (row + display.showY) i)
    if state.2.2 = 0 then (build, state.2.1 + 1, 3) else (build, state.2.1, state.2.2 - 1)
  have rounds (done : Nat) (memory : Int → UInt8) (early : done < scrollXDim) :
      body done (memory, cursor done) =
      (Function.update memory (display.address (display.showX + done, row + display.showY))
        (pixelOf blocks maze (display.showX + done, row + display.showY)), cursor (done + 1)) := by
    dsimp only [body]
    rw [fillHorizBuffer_eq blocks maze _ _ early]
    by_cases last : 3 - (display.showX + done) % 4 = 0
    · rw [if_pos last]
      refine Prod.ext rfl (Prod.ext ?_ ?_)
      · dsimp only [cursor]
        omega
      · dsimp only [cursor]
        omega
    · rw [if_neg last]
      refine Prod.ext rfl (Prod.ext ?_ ?_)
      · dsimp only [cursor]
        omega
      · dsimp only [cursor]
        omega
  have start : cursor 0 = (display.img3Off + (display.showX / 4 : Nat) +
    ((row + display.showY) * scrollXWidth : Nat), 3 - display.showX % 4) := rfl
  have painted := Paints.cursorLoop body cursor _ display.build rounds injective
  rw [start] at painted
  rw [drawHorizLine, if_neg (not_le.2 inside)]
  refine ⟨rfl, rfl, rfl, ?_⟩
  dsimp only
  exact painted

theorem pixelOf_block {x y u v : Nat} (column : u / blockXDim = x) (row : v / blockYDim = y) :
    pixelOf blocks maze (u, v) =
      blocks (findBlock maze x y) (v % blockYDim * blockXDim + u % blockXDim) := by
  rw [pixelOf, column, row]

/-- A block off the screen has no pixel in the window. -/
theorem block_eq_empty {x y : Nat}
    (off : x * blockXDim + blockXDim ≤ display.showX ∨ display.showX + scrollXDim ≤ x * blockXDim ∨
      y * blockYDim + blockYDim ≤ display.showY ∨ display.showY + scrollYDim ≤ y * blockYDim) :
    display.block x y = ∅ := by
  refine Set.eq_empty_iff_forall_notMem.2 fun pixel member => ?_
  obtain ⟨⟨⟨left, right⟩, top, bottom⟩, column, row⟩ := member
  dsimp only [blockXDim, blockYDim, scrollXDim, scrollYDim] at *
  omega

/-- The clipped block has exactly its pixels in the window. -/
theorem block_eq_iUnion {x y : Nat} : display.block x y =
    ⋃ dy < min (display.showY + scrollYDim - y * blockYDim) blockYDim -
        (display.showY - y * blockYDim),
      ⋃ dx < min (display.showX + scrollXDim - x * blockXDim) blockXDim -
          (display.showX - x * blockXDim),
        {(x * blockXDim + (display.showX - x * blockXDim) + dx,
          y * blockYDim + (display.showY - y * blockYDim) + dy)} := by
  ext ⟨px, py⟩
  simp only [block, window, Set.mem_ofPred_eq, Set.mem_iUnion, Set.mem_singleton_iff,
    Prod.mk.injEq, exists_prop, blockXDim, blockYDim, scrollXDim, scrollYDim]
  constructor
  · rintro ⟨⟨⟨left, right⟩, top, bottom⟩, column, row⟩
    exact ⟨py - (y * 12 + (display.showY - y * 12)), by omega,
      px - (x * 12 + (display.showX - x * 12)), by omega, by omega, by omega⟩
  · rintro ⟨dy, low, dx, near, column, row⟩
    omega

variable (display) in
theorem drawFullBlock_draws (x y : Nat) :
    Draws display (display.drawFullBlock (x * blockXDim) (y * blockYDim)
      (blocks (findBlock maze x y))) (display.block x y) (pixelOf blocks maze) := by
  rw [drawFullBlock]
  by_cases off : x * blockXDim + blockXDim ≤ display.showX ∨
      display.showX + scrollXDim ≤ x * blockXDim ∨
      y * blockYDim + blockYDim ≤ display.showY ∨ display.showY + scrollYDim ≤ y * blockYDim
  · rw [if_pos off, block_eq_empty off]
    exact ⟨rfl, rfl, rfl, .refl ..⟩
  · rw [if_neg off]
    have injective := display.address_injOn.mono (display.block_subset x y)
    rw [block_eq_iUnion] at injective ⊢
    refine ⟨rfl, rfl, rfl, ?_⟩
    dsimp only
    refine Paints.forLoop display.build (fun dy memory low => ?_) injective
    refine Paints.forLoop memory (fun dx memory near => ?_) ?_
    · have painted := Paints.single memory display.address
        (x * blockXDim + (display.showX - x * blockXDim) + dx,
          y * blockYDim + (display.showY - y * blockYDim) + dy) (pixelOf blocks maze)
      have across : display.showX - x * blockXDim + dx < blockXDim := by omega
      have down : display.showY - y * blockYDim + dy < blockYDim := by omega
      have width : min (display.showX + scrollXDim - x * blockXDim) blockXDim -
          (display.showX - x * blockXDim) +
          (blockXDim - (min (display.showX + scrollXDim - x * blockXDim) blockXDim -
            (display.showX - x * blockXDim))) = blockXDim := by omega
      rw [width]
      generalize display.showX - x * blockXDim = left at across painted ⊢
      generalize display.showY - y * blockYDim = top at down painted ⊢
      dsimp only [blockXDim, blockYDim] at across down
      have column : (x * blockXDim + left + dx) / blockXDim = x := by
        dsimp only [blockXDim]
        omega
      have row : (y * blockYDim + top + dy) / blockYDim = y := by
        dsimp only [blockYDim]
        omega
      have color := pixelOf_block blocks maze column row
      have offset : (y * blockYDim + top + dy) % blockYDim * blockXDim +
          (x * blockXDim + left + dx) % blockXDim =
            left + top * blockXDim + dy * blockXDim + dx := by
        dsimp only [blockXDim, blockYDim]
        omega
      rw [color, offset] at painted
      exact painted
    · exact injective.mono fun pixel member => Set.mem_iUnion₂.2 ⟨dy, low, member⟩

variable (display) in
/-- Two blocks of one picture may be drawn one after the other. -/
theorem drawFullBlock_draws_two (x y u v : Nat) :
    Draws display ((display.drawFullBlock (x * blockXDim) (y * blockYDim)
        (blocks (findBlock maze x y))).drawFullBlock (u * blockXDim) (v * blockYDim)
          (blocks (findBlock maze u v)))
      (display.block x y ∪ display.block u v) (pixelOf blocks maze) := by
  have first := display.drawFullBlock_draws blocks maze x y
  have second := (display.drawFullBlock (x * blockXDim) (y * blockYDim)
    (blocks (findBlock maze x y))).drawFullBlock_draws blocks maze u v
  rw [first.block_eq] at second
  exact first.trans second (Set.union_subset (display.block_subset x y) (display.block_subset u v))

end Display

end ComputerSystems.Mp2
