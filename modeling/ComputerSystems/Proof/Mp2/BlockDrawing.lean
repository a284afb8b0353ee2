import ComputerSystems.Library.Canvas
import ComputerSystems.Proof.Mp2.BuildBufferLayout

namespace ComputerSystems.Mp2

open Library

namespace BuildBuffer

/-- The pixels of a block at a position. -/
def block (posX posY : Int) : Set (Int × Int) :=
  {pixel | (0 ≤ pixel.1 - posX ∧ pixel.1 - posX < blockXDim) ∧
    0 ≤ pixel.2 - posY ∧ pixel.2 - posY < blockYDim}

def blockIndex (posX posY : Int) (pixel : Int × Int) : Nat :=
  (blockXDim * (pixel.2 - posY) + (pixel.1 - posX)).toNat

def color (buffer : BuildBuffer) (pixel : Int × Int) : UInt8 :=
  buffer.build.memory (buffer.address pixel.1 pixel.2)

/-- The part of a block that the window shows. -/
def visible (buffer : BuildBuffer) (posX posY : Int) : Set (Int × Int) :=
  buffer.window ∩ block posX posY

/-- The pixels of a block have different indices. -/
theorem blockIndex_injOn (posX posY : Int) :
    Set.InjOn (blockIndex posX posY) (block posX posY) := by
  rintro ⟨x, y⟩ ⟨⟨left, right⟩, top, bottom⟩ ⟨u, v⟩ ⟨⟨otherLeft, otherRight⟩, otherTop, otherBottom⟩
    same
  simp only [blockIndex, blockXDim, blockYDim] at *
  have columns : x = u ∧ y = v := by omega
  rw [columns.1, columns.2]

/-- What the clipping computes for a block that is not off the screen. -/
structure Clipped (buffer : BuildBuffer) (posX posY : Int) (part : Clip) : Prop where
  left : part.posX = max buffer.showX posX
  top : part.posY = max buffer.showY posY
  right : part.posX + part.xRight = min (buffer.showX + scrollXDim) (posX + blockXDim)
  bottom : part.posY + part.yBottom = min (buffer.showY + scrollYDim) (posY + blockYDim)
  wide : 0 < part.xRight
  high : 0 < part.yBottom
  start : part.start = blockXDim * (part.posY - posY) + (part.posX - posX)
  row : part.xRight + part.xLeft = blockXDim

section
variable {buffer : BuildBuffer} {posX posY : Int} {part : Clip}

theorem clipped_of_some (clipped : buffer.clip posX posY = some part) :
    Clipped buffer posX posY part := by
  unfold clip at clipped
  split at clipped
  · cases clipped
  · cases clipped
    simp only [blockXDim, blockYDim, scrollXDim, scrollYDim] at *
    constructor <;> dsimp only [blockXDim, blockYDim, scrollXDim, scrollYDim] <;> omega

/-- A block off the screen has no pixel in the window. -/
theorem visible_of_none (clipped : buffer.clip posX posY = none) :
    buffer.visible posX posY = ∅ := by
  unfold clip at clipped
  split at clipped
  next off =>
    refine Set.eq_empty_iff_forall_notMem.2 fun pixel member => ?_
    obtain ⟨⟨⟨left, right⟩, top, bottom⟩, ⟨near, far⟩, low, high⟩ := member
    simp only [blockXDim, blockYDim, scrollXDim, scrollYDim] at *
    omega
  next => cases clipped

/-- The loops go through the visible pixels. -/
theorem Clipped.visible_eq (clipped : Clipped buffer posX posY part) :
    buffer.visible posX posY = ⋃ dy < part.yBottom.toNat, ⋃ dx < part.xRight.toNat,
      {((part.posX + dx : Int), (part.posY + dy : Int))} := by
  obtain ⟨left, top, right, bottom, wide, high, -, -⟩ := clipped
  ext ⟨x, y⟩
  simp only [visible, window, block, Set.mem_inter_iff, Set.mem_ofPred_eq, Set.mem_iUnion,
    Set.mem_singleton_iff, Prod.mk.injEq, exists_prop]
  simp only [blockXDim, blockYDim, scrollXDim, scrollYDim] at *
  constructor
  · rintro ⟨⟨⟨a, b⟩, c, d⟩, ⟨e, f⟩, g, h⟩
    exact ⟨(y - part.posY).toNat, by omega, (x - part.posX).toNat, by omega, by omega, by omega⟩
  · rintro ⟨dy, low, dx, near, rfl, rfl⟩
    omega

/-- The data pointer is at the index of the pixel. -/
theorem Clipped.index_eq (clipped : Clipped buffer posX posY part) (dx dy : Nat) :
    part.index dx dy = blockIndex posX posY ((part.posX + dx : Int), (part.posY + dy : Int)) := by
  obtain ⟨left, top, -, -, wide, high, start, row⟩ := clipped
  rw [Clip.index, blockIndex, start, row]
  simp only [blockXDim]
  congr 1
  ring

/-- Loops over the visible pixels draw those that their rounds draw. -/
theorem Clipped.paints {State : Type} (clipped : Clipped buffer posX posY part)
    {drawn : Set (Int × Int)} {picture : Int × Int → UInt8} {body : Nat → Nat → State → State}
    (memory : State → Int → UInt8)
    (rounds : ∀ dx dy state, Paints (memory state) (memory (body dx dy state))
      (fun pixel : Int × Int => buffer.address pixel.1 pixel.2)
      ({((part.posX + dx : Int), (part.posY + dy : Int))} ∩ drawn) picture) (state : State) :
    Paints (memory state)
      (memory (forLoop (fun dy => forLoop (fun dx => body dx dy) 0 part.xRight.toNat)
        0 part.yBottom.toNat state))
      (fun pixel : Int × Int => buffer.address pixel.1 pixel.2)
      (buffer.visible posX posY ∩ drawn) picture := by
  have injective : Set.InjOn (fun pixel : Int × Int => buffer.address pixel.1 pixel.2)
      (buffer.visible posX posY ∩ drawn) :=
    buffer.address_injOn.mono fun pixel member => member.1.1
  rw [clipped.visible_eq] at injective ⊢
  simp only [Set.iUnion_inter] at injective ⊢
  refine Paints.stateLoop memory state (fun dy rows low => ?_) injective
  refine Paints.stateLoop memory rows (fun dx pixels _ => rounds dx dy pixels) ?_
  exact injective.mono fun pixel member => Set.mem_iUnion₂.2 ⟨dy, low, member⟩

end

/-- A drawing changes the pixels of the window that it draws and no others. -/
structure Redraws (before after : BuildBuffer) (drawn : Set (Int × Int))
    (picture : Int × Int → UInt8) : Prop where
  shows : ∀ pixel ∈ drawn, after.color pixel = picture pixel
  frame : ∀ pixel ∈ before.window, pixel ∉ drawn → after.color pixel = before.color pixel

theorem Redraws.of_paints {before after : BuildBuffer} {drawn : Set (Int × Int)}
    {picture : Int × Int → UInt8} (img3Off : after.img3Off = before.img3Off)
    (within : drawn ⊆ before.window)
    (paints : Paints before.build.memory after.build.memory
      (fun pixel : Int × Int => before.address pixel.1 pixel.2) drawn picture) :
    Redraws before after drawn picture := by
  have same (pixel : Int × Int) :
      after.address pixel.1 pixel.2 = before.address pixel.1 pixel.2 := by
    rw [address, address, img3Off]
  constructor
  · intro pixel member
    rw [color, same]
    exact paints.shows pixel member
  · intro pixel shown apart
    rw [color, same, color]
    apply paints.frame
    intro other member equal
    apply apart
    rwa [← before.address_injOn (within member) shown equal]

/-- The block is drawn exactly where the window shows it. -/
theorem drawFullBlock_redraws (buffer : BuildBuffer) (posX posY : Int) (blk : Nat → UInt8) :
    Redraws buffer (buffer.drawFullBlock posX posY blk) (buffer.visible posX posY)
      fun pixel => blk (blockIndex posX posY pixel) := by
  unfold drawFullBlock
  cases clip : buffer.clip posX posY with
  | none =>
      rw [visible_of_none clip]
      exact ⟨fun pixel member => absurd member (Set.notMem_empty pixel), fun _ _ _ => rfl⟩
  | some part =>
      have clipped := clipped_of_some clip
      rw [← Set.inter_univ (buffer.visible posX posY)]
      apply Redraws.of_paints
      · rfl
      · exact Set.inter_subset_left.trans Set.inter_subset_left
      · apply clipped.paints Logged.memory
        intro dx dy logged
        rw [Set.inter_univ, clipped.index_eq]
        exact Paints.single logged.memory (fun pixel : Int × Int => buffer.address pixel.1 pixel.2)
          ((part.posX + dx : Int), (part.posY + dy : Int))
          fun pixel => blk (blockIndex posX posY pixel)

/-- The value of a pixel of a refilled block. The byte `0xAA` stands for a skipped pixel. -/
def refillValue (mask panel : Nat → UInt8) (i : Nat) : UInt8 :=
  if mask i = 1 then panel i else 0xAA

/-- The loops of a masked drawing. -/
def refillLoop (buffer : BuildBuffer) (part : Clip) (mask panel : Nat → UInt8) (height : Nat) :
    Logged Int UInt8 × (Nat → UInt8) :=
  forLoop (fun dy => forLoop (fun dx =>
    refillPixel (buffer.address (part.posX + dx) (part.posY + dy)) part.start.toNat
      (refillValue mask panel (part.index dx dy))) 0 part.xRight.toNat)
    0 height (buffer.build, buffer.saveBuf)

section
variable {buffer : BuildBuffer} {posX posY : Int} {part : Clip} {mask panel : Nat → UInt8}

theorem drawRefillBlock_none (clip : buffer.clip posX posY = none) :
    buffer.drawRefillBlock posX posY mask panel = buffer := by
  unfold drawRefillBlock
  rw [clip]

theorem drawRefillBlock_some (clip : buffer.clip posX posY = some part) :
    buffer.drawRefillBlock posX posY mask panel =
      { buffer with
        build := (refillLoop buffer part mask panel part.yBottom.toNat).1
        saveBuf := (refillLoop buffer part mask panel part.yBottom.toNat).2 } := by
  unfold drawRefillBlock
  rw [clip]
  rfl

/-- A round of a masked drawing draws a pixel whose value does not stand for a skipped one. -/
theorem Clipped.refill_paints (clipped : Clipped buffer posX posY part) (dx dy : Nat)
    (state : Logged Int UInt8 × (Nat → UInt8)) :
    Paints state.1.memory
      (refillPixel (buffer.address (part.posX + dx) (part.posY + dy)) part.start.toNat
        (refillValue mask panel (part.index dx dy)) state).1.memory
      (fun pixel : Int × Int => buffer.address pixel.1 pixel.2)
      ({((part.posX + dx : Int), (part.posY + dy : Int))} ∩
        {pixel | refillValue mask panel (blockIndex posX posY pixel) ≠ 0xAA})
      fun pixel => refillValue mask panel (blockIndex posX posY pixel) := by
  rw [clipped.index_eq]
  unfold refillPixel
  split
  next drawn =>
    rw [Set.inter_eq_left.2 (Set.singleton_subset_iff.2 drawn)]
    exact Paints.single state.1.memory (fun pixel : Int × Int => buffer.address pixel.1 pixel.2)
      ((part.posX + dx : Int), (part.posY + dy : Int))
      fun pixel => refillValue mask panel (blockIndex posX posY pixel)
  next skipped =>
    rw [Set.singleton_inter_eq_empty.2 skipped]
    exact Paints.refl ..

end

/-- The masked block is drawn where its value does not stand for a skipped pixel. -/
theorem drawRefillBlock_redraws (buffer : BuildBuffer) (posX posY : Int)
    (mask panel : Nat → UInt8) :
    Redraws buffer (buffer.drawRefillBlock posX posY mask panel)
      (buffer.visible posX posY ∩
        {pixel | refillValue mask panel (blockIndex posX posY pixel) ≠ 0xAA})
      fun pixel => refillValue mask panel (blockIndex posX posY pixel) := by
  cases clip : buffer.clip posX posY with
  | none =>
      rw [drawRefillBlock_none clip, visible_of_none clip, Set.empty_inter]
      exact ⟨fun pixel member => absurd member (Set.notMem_empty pixel), fun _ _ _ => rfl⟩
  | some part =>
      have clipped := clipped_of_some clip
      rw [drawRefillBlock_some clip]
      apply Redraws.of_paints
      · rfl
      · exact Set.inter_subset_left.trans Set.inter_subset_left
      · exact clipped.paints (fun state : Logged Int UInt8 × (Nat → UInt8) => state.1.memory)
          clipped.refill_paints (buffer.build, buffer.saveBuf)

section
variable {buffer : BuildBuffer} {slot : Nat}

/-- Rounds at other places keep the byte at a place and all but one byte of the save buffer. -/
structure Kept (buffer : BuildBuffer) (slot : Nat) (place : Int)
    (state : Logged Int UInt8 × (Nat → UInt8)) : Prop where
  memory : state.1.memory place = buffer.build.memory place
  saveBuf : ∀ i, i ≠ slot → state.2 i = buffer.saveBuf i

theorem refillPixel_saveBuf (place : Int) (slot : Nat) (value : UInt8)
    (state : Logged Int UInt8 × (Nat → UInt8)) :
    (refillPixel place slot value state).2 = Function.update state.2 slot
      (if value ≠ 0xAA then state.1.memory place else 0xAA) := by
  unfold refillPixel
  split <;> rfl

theorem Kept.refillPixel {place other : Int} {state : Logged Int UInt8 × (Nat → UInt8)}
    (kept : Kept buffer slot place state) (apart : place ≠ other) (value : UInt8) :
    Kept buffer slot place (refillPixel other slot value state) := by
  constructor
  · rw [← kept.memory]
    unfold BuildBuffer.refillPixel
    split
    · exact Function.update_of_ne apart _ _
    · rfl
  · intro i different
    rw [refillPixel_saveBuf, Function.update_of_ne different, kept.saveBuf i different]

variable {posX posY : Int} {part : Clip} {mask panel : Nat → UInt8}

/-- The pixel in the last column and the last row of the visible part. -/
def lastPixel (part : Clip) : Int × Int :=
  (part.posX + part.xRight - 1, part.posY + part.yBottom - 1)

/-- Only the last pixel is left in the save buffer, at the index of the first one. -/
theorem Clipped.refillLoop_saveBuf (clipped : Clipped buffer posX posY part) :
    (refillLoop buffer part mask panel part.yBottom.toNat).2 =
      Function.update buffer.saveBuf part.start.toNat
        (if refillValue mask panel (blockIndex posX posY (lastPixel part)) ≠ 0xAA then
          buffer.color (lastPixel part) else 0xAA) := by
  obtain ⟨width, columns⟩ := Int.eq_succ_of_zero_lt clipped.wide
  obtain ⟨height, rows⟩ := Int.eq_succ_of_zero_lt clipped.high
  have last : lastPixel part = ((part.posX + width : Int), (part.posY + height : Int)) := by
    rw [lastPixel, columns, rows]
    ext <;> dsimp only <;> omega
  have apart (dx dy : Nat) (near : dx ≤ width) (low : dy ≤ height)
      (other : ¬ (dx = width ∧ dy = height)) :
      buffer.address (part.posX + width) (part.posY + height) ≠
        buffer.address (part.posX + dx) (part.posY + dy) := by
    have shown (dx dy : Nat) (near : dx ≤ width) (low : dy ≤ height) :
        ((part.posX + dx : Int), (part.posY + dy : Int)) ∈ buffer.window := by
      have member : ((part.posX + dx : Int), (part.posY + dy : Int)) ∈
          buffer.visible posX posY := by
        rw [clipped.visible_eq]
        simp only [Set.mem_iUnion]
        exact ⟨dy, by omega, dx, by omega, rfl⟩
      exact member.1
    intro same
    have equal :=
      buffer.address_injOn (shown width height le_rfl le_rfl) (shown dx dy near low) same
    rw [Prod.mk.injEq] at equal
    omega
  have start : Kept buffer part.start.toNat
      (buffer.address (part.posX + width) (part.posY + height))
      (refillLoop buffer part mask panel height) := by
    unfold refillLoop
    apply forLoop_rule fun _ state => Kept buffer part.start.toNat
      (buffer.address (part.posX + width) (part.posY + height)) state
    · exact ⟨rfl, fun _ _ => rfl⟩
    · intro dy state low before
      apply forLoop_rule fun _ state => Kept buffer part.start.toNat
        (buffer.address (part.posX + width) (part.posY + height)) state
      · exact before
      · intro dx state near before
        exact before.refillPixel (apart _ _ (by omega) (by omega) (by omega)) _
  let round (dx : Nat) : Logged Int UInt8 × (Nat → UInt8) → Logged Int UInt8 × (Nat → UInt8) :=
    BuildBuffer.refillPixel (buffer.address (part.posX + dx) (part.posY + height))
      part.start.toNat (refillValue mask panel (part.index dx height))
  have lastRow : Kept buffer part.start.toNat
      (buffer.address (part.posX + width) (part.posY + height))
      (forLoop round 0 width (refillLoop buffer part mask panel height)) := by
    apply forLoop_rule fun _ state => Kept buffer part.start.toNat
      (buffer.address (part.posX + width) (part.posY + height)) state
    · exact start
    · intro dx state near before
      exact before.refillPixel (apart _ _ (by omega) (by omega) (by omega)) _
  have ends : refillLoop buffer part mask panel part.yBottom.toNat =
      round width (forLoop round 0 width (refillLoop buffer part mask panel height)) := by
    have high : part.yBottom.toNat = height + 1 := by omega
    have wide : part.xRight.toNat = width + 1 := by omega
    unfold refillLoop
    rw [high, forLoop, wide, Nat.zero_add, forLoop, Nat.zero_add]
  rw [ends, last]
  dsimp only [round]
  rw [refillPixel_saveBuf, lastRow.memory, clipped.index_eq]
  funext i
  by_cases here : i = part.start.toNat
  · rw [here, Function.update_self, Function.update_self]
    rfl
  · rw [Function.update_of_ne here, Function.update_of_ne here]
    exact lastRow.saveBuf i here

end

section
variable (buffer : BuildBuffer) (posX posY : Int)

/-- The corners of the visible part of a block. -/
def firstShown : Int × Int := (max buffer.showX posX, max buffer.showY posY)

def lastShown : Int × Int :=
  (min (buffer.showX + scrollXDim) (posX + blockXDim) - 1,
    min (buffer.showY + scrollYDim) (posY + blockYDim) - 1)

/-- The byte to save for a pixel: what was there before, or `0xAA` for a skipped pixel. -/
def savedColor (mask : Nat → UInt8) (pixel : Int × Int) : UInt8 :=
  if mask (blockIndex posX posY pixel) = 1 then buffer.color pixel else 0xAA

/-- Both drawings are clipped exactly, and the masked one saves what it covers. -/
structure DrawsBlocks (blk mask panel : Nat → UInt8) : Prop where
  full : Redraws buffer (buffer.drawFullBlock posX posY blk) (buffer.visible posX posY)
    fun pixel => blk (blockIndex posX posY pixel)
  masked : Redraws buffer (buffer.drawRefillBlock posX posY mask panel)
    (buffer.visible posX posY ∩ {pixel | mask (blockIndex posX posY pixel) = 1})
    fun pixel => panel (blockIndex posX posY pixel)
  saved : ∀ pixel ∈ buffer.visible posX posY,
    (buffer.drawRefillBlock posX posY mask panel).saveBuf (blockIndex posX posY pixel) =
      buffer.savedColor posX posY mask pixel

/-- No picture byte that is to be drawn stands for a skipped pixel, unless it is there already. The
save buffer holds its bytes beforehand, but for the first, which is to be that of the last pixel. -/
structure SavedBefore (mask panel : Nat → UInt8) : Prop where
  palette : ∀ pixel ∈ buffer.visible posX posY, mask (blockIndex posX posY pixel) = 1 →
    panel (blockIndex posX posY pixel) = 0xAA → buffer.color pixel = 0xAA
  held : ∀ pixel ∈ buffer.visible posX posY, pixel ≠ buffer.firstShown posX posY →
    buffer.saveBuf (blockIndex posX posY pixel) = buffer.savedColor posX posY mask pixel
  ends : (buffer.visible posX posY).Nonempty →
    buffer.savedColor posX posY mask (buffer.firstShown posX posY) =
      buffer.savedColor posX posY mask (buffer.lastShown posX posY)

end

section
variable {buffer : BuildBuffer} {posX posY : Int} {part : Clip} {blk mask panel : Nat → UInt8}

theorem Clipped.firstShown_eq (clipped : Clipped buffer posX posY part) :
    buffer.firstShown posX posY = (part.posX, part.posY) := by
  rw [firstShown, clipped.left, clipped.top]

theorem Clipped.lastShown_eq (clipped : Clipped buffer posX posY part) :
    buffer.lastShown posX posY = lastPixel part := by
  rw [lastShown, lastPixel, clipped.right, clipped.bottom]

theorem Clipped.start_eq (clipped : Clipped buffer posX posY part) :
    part.start.toNat = blockIndex posX posY (buffer.firstShown posX posY) := by
  rw [clipped.firstShown_eq, clipped.start, blockIndex]

theorem Clipped.first_mem (clipped : Clipped buffer posX posY part) :
    buffer.firstShown posX posY ∈ buffer.visible posX posY := by
  obtain ⟨wide, high⟩ := And.intro clipped.wide clipped.high
  rw [clipped.firstShown_eq, clipped.visible_eq]
  simp only [Set.mem_iUnion]
  exact ⟨0, by omega, 0, by omega, by simp⟩

theorem Clipped.last_mem (clipped : Clipped buffer posX posY part) :
    buffer.lastShown posX posY ∈ buffer.visible posX posY := by
  obtain ⟨wide, high⟩ := And.intro clipped.wide clipped.high
  rw [clipped.lastShown_eq, clipped.visible_eq]
  simp only [Set.mem_iUnion]
  refine ⟨(part.yBottom - 1).toNat, by omega, (part.xRight - 1).toNat, by omega, ?_⟩
  rw [lastPixel, Set.mem_singleton_iff]
  ext <;> dsimp only <;> omega

/-- The save buffer after a masked drawing, for a palette without the byte `0xAA`. -/
theorem Clipped.saveBuf_eq (clip : buffer.clip posX posY = some part)
    (palette : ∀ pixel ∈ buffer.visible posX posY, mask (blockIndex posX posY pixel) = 1 →
      panel (blockIndex posX posY pixel) = 0xAA → buffer.color pixel = 0xAA) :
    (buffer.drawRefillBlock posX posY mask panel).saveBuf =
      Function.update buffer.saveBuf (blockIndex posX posY (buffer.firstShown posX posY))
        (buffer.savedColor posX posY mask (buffer.lastShown posX posY)) := by
  have clipped := clipped_of_some clip
  have last := palette _ clipped.last_mem
  rw [drawRefillBlock_some clip, ← clipped.start_eq]
  dsimp only
  rw [clipped.refillLoop_saveBuf, ← clipped.lastShown_eq]
  congr 1
  unfold refillValue savedColor
  by_cases drawn : mask (blockIndex posX posY (buffer.lastShown posX posY)) = 1
  · rw [if_pos drawn, if_pos drawn]
    split
    next => rfl
    next skipped => rw [last drawn (not_not.1 skipped)]
  · rw [if_neg drawn, if_neg drawn, if_neg (not_not.2 rfl)]

/-- A pixel that the mask selects is drawn unless its byte stands for a skipped one. -/
theorem refill_color {pixel : Int × Int} (shown : pixel ∈ buffer.visible posX posY)
    (selected : mask (blockIndex posX posY pixel) = 1) :
    (buffer.drawRefillBlock posX posY mask panel).color pixel =
      if panel (blockIndex posX posY pixel) ≠ 0xAA then panel (blockIndex posX posY pixel)
      else buffer.color pixel := by
  have redraws := buffer.drawRefillBlock_redraws posX posY mask panel
  have value : refillValue mask panel (blockIndex posX posY pixel) =
      panel (blockIndex posX posY pixel) := if_pos selected
  split
  next drawn =>
    rw [← value] at drawn ⊢
    exact redraws.shows pixel ⟨shown, drawn⟩
  next skipped =>
    refine redraws.frame pixel shown.1 fun member => skipped ?_
    rw [← value]
    exact member.2

theorem savedBefore_of_draws (draws : buffer.DrawsBlocks posX posY blk mask panel) :
    buffer.SavedBefore posX posY mask panel := by
  have palette : ∀ pixel ∈ buffer.visible posX posY, mask (blockIndex posX posY pixel) = 1 →
      panel (blockIndex posX posY pixel) = 0xAA → buffer.color pixel = 0xAA := by
    intro pixel shown selected skipped
    have drawn := draws.masked.shows pixel ⟨shown, selected⟩
    rwa [refill_color shown selected, if_neg (not_not.2 skipped), skipped] at drawn
  cases clip : buffer.clip posX posY with
  | none =>
      have nothing := visible_of_none clip
      refine ⟨palette, fun pixel shown => ?_, fun nonempty => ?_⟩
      · rw [nothing] at shown
        exact absurd shown (Set.notMem_empty pixel)
      · rw [nothing] at nonempty
        exact absurd nonempty Set.not_nonempty_empty
  | some part =>
      have clipped := clipped_of_some clip
      refine ⟨palette, fun pixel shown other => ?_, fun _ => ?_⟩
      · have saved := draws.saved pixel shown
        rwa [Clipped.saveBuf_eq clip palette, Function.update_of_ne fun same => other
          (blockIndex_injOn posX posY shown.2 clipped.first_mem.2 same)] at saved
      · have saved := draws.saved _ clipped.first_mem
        rw [Clipped.saveBuf_eq clip palette, Function.update_self] at saved
        exact saved.symm

theorem draws_of_savedBefore (before : buffer.SavedBefore posX posY mask panel) :
    buffer.DrawsBlocks posX posY blk mask panel := by
  refine ⟨buffer.drawFullBlock_redraws posX posY blk, ⟨?_, ?_⟩, ?_⟩
  · rintro pixel ⟨shown, selected⟩
    rw [refill_color shown selected]
    split
    next => rfl
    next skipped =>
      rw [before.palette pixel shown selected (not_not.1 skipped), not_not.1 skipped]
  · intro pixel shown apart
    refine (buffer.drawRefillBlock_redraws posX posY mask panel).frame pixel shown fun member => ?_
    refine apart ⟨member.1, ?_⟩
    by_contra masked
    exact member.2 (if_neg masked)
  · intro pixel shown
    cases clip : buffer.clip posX posY with
    | none =>
        rw [visible_of_none clip] at shown
        exact absurd shown (Set.notMem_empty pixel)
    | some part =>
        rw [Clipped.saveBuf_eq clip before.palette]
        by_cases first : pixel = buffer.firstShown posX posY
        · rw [first, Function.update_self]
          exact (before.ends ⟨pixel, shown⟩).symm
        · rw [Function.update_of_ne fun same => first (blockIndex_injOn posX posY shown.2
            (clipped_of_some clip).first_mem.2 same)]
          exact before.held pixel shown first

end

end BuildBuffer

/-- The drawings are right exactly when the save buffer holds its bytes beforehand: the masked one
saves only the last pixel that it visits, at the index of the first. -/
theorem blockDrawing_iff (buffer : BuildBuffer) (posX posY : Int) (blk mask panel : Nat → UInt8) :
    buffer.DrawsBlocks posX posY blk mask panel ↔ buffer.SavedBefore posX posY mask panel :=
  ⟨BuildBuffer.savedBefore_of_draws, BuildBuffer.draws_of_savedBefore⟩

/-- A block in the corner of the first window leaves the save buffer as it was but for one byte. -/
theorem drawRefillBlock_unsaved :
    ¬ (BuildBuffer.setModeX (fun _ => 0) fun _ => 7).DrawsBlocks 0 0 (fun _ => 1) (fun _ => 1)
      fun _ => 1 := by
  intro draws
  have before := BuildBuffer.savedBefore_of_draws draws
  have shown : (1, 0) ∈ (BuildBuffer.setModeX (fun _ => 0) fun _ => 7).visible 0 0 := by
    simp [BuildBuffer.visible, BuildBuffer.window, BuildBuffer.block, BuildBuffer.setModeX]
  have held := before.held (1, 0) shown (by decide)
  exact absurd held (by decide)

end ComputerSystems.Mp2
