import ComputerSystems.Construction.Mp2.Game
import ComputerSystems.Library.Canvas

namespace ComputerSystems.Mp2

open Library

section Fill

variable (length blockDim : Nat) (pixel : Nat → Nat → UInt8)

/-- The inner loop fills the rest of one block or of the line. -/
def fillBlock : Fill → Fill :=
  whileLoop (fun fill => fill.idx < length && fill.sub < blockDim)
    (fun fill => { fill with
      idx := fill.idx + 1
      sub := fill.sub + 1
      buf := Function.update fill.buf fill.idx (pixel fill.map fill.sub) })
    blockDim

/-- The pixels so far belong to one block. -/
structure Filling (start fill : Fill) : Prop where
  map : fill.map = start.map
  sub : fill.idx + start.sub = start.idx + fill.sub
  idx : start.idx ≤ fill.idx
  bound : fill.idx ≤ length
  inside : fill.sub ≤ blockDim
  buf : ∀ place, fill.buf place = if start.idx ≤ place ∧ place < fill.idx then
    pixel start.map (start.sub + (place - start.idx)) else start.buf place

theorem fillBlock_spec (start : Fill) (bound : start.idx ≤ length) (inside : start.sub ≤ blockDim) :
    Filling length blockDim pixel start (fillBlock length blockDim pixel start) ∧
      ((fillBlock length blockDim pixel start).idx = length ∨
        (fillBlock length blockDim pixel start).sub = blockDim) := by
  have initial : Filling length blockDim pixel start start := by
    refine ⟨rfl, rfl, le_rfl, bound, inside, fun place => ?_⟩
    rw [if_neg (by omega)]
  have round (fill : Fill) (filling : Filling length blockDim pixel start fill)
      (running : (fill.idx < length && fill.sub < blockDim) = true) :
      Filling length blockDim pixel start { fill with
        idx := fill.idx + 1
        sub := fill.sub + 1
        buf := Function.update fill.buf fill.idx (pixel fill.map fill.sub) } ∧
        blockDim - (fill.sub + 1) < blockDim - fill.sub := by
    simp only [Bool.and_eq_true, decide_eq_true_eq] at running
    obtain ⟨map, sub, idx, _, _, buf⟩ := filling
    refine ⟨⟨map, by dsimp only; omega, by dsimp only; omega, by dsimp only; omega,
      by dsimp only; omega, fun place => ?_⟩, by omega⟩
    dsimp only
    rw [Function.update_apply, buf place]
    by_cases here : place = fill.idx
    · rw [if_pos here, if_pos (by omega), map]
      refine congrArg (pixel start.map) ?_
      omega
    · rw [if_neg here]
      refine if_congr ?_ rfl rfl
      omega
  obtain ⟨filled, stopped⟩ := whileLoop_rule _ _ (Filling length blockDim pixel start)
    (fun fill => blockDim - fill.sub) round blockDim start initial (Nat.sub_le ..)
  refine ⟨filled, ?_⟩
  have ends := filled.bound
  have last := filled.inside
  rw [fillBlock]
  simp only [Bool.and_eq_false_iff, decide_eq_false_iff_not] at stopped
  omega

/-- Each pixel of the line comes from its block. -/
theorem fillBuffer_buf {sub map idx : Nat} (buf : Nat → UInt8) (inside : sub < blockDim)
    (place : idx < length) : (fillBuffer length blockDim pixel ⟨0, sub, map, buf⟩).buf idx =
      pixel (map + (sub + idx) / blockDim) ((sub + idx) % blockDim) := by
  let invariant (fill : Fill) : Prop := fill.idx ≤ length ∧
    (∀ place < fill.idx, fill.buf place =
      pixel (map + (sub + place) / blockDim) ((sub + place) % blockDim)) ∧
    (fill.idx < length → fill.sub < blockDim ∧
      ∃ blocks, fill.map = map + blocks ∧ sub + fill.idx = blockDim * blocks + fill.sub)
  have round (fill : Fill) (holds : invariant fill) (running : decide (fill.idx < length) = true) :
      invariant { fillBlock length blockDim pixel fill with
        map := (fillBlock length blockDim pixel fill).map + 1, sub := 0 } ∧
        length - (fillBlock length blockDim pixel fill).idx < length - fill.idx := by
    have more := of_decide_eq_true running
    obtain ⟨bound, buf, position⟩ := holds
    obtain ⟨sub_lt, blocks, map_eq, sum⟩ := position more
    obtain ⟨filled, ended⟩ := fillBlock_spec length blockDim pixel fill bound sub_lt.le
    have sub_eq := filled.sub
    have bound_eq := filled.bound
    refine ⟨⟨bound_eq, fun place early => ?_, fun rest => ?_⟩, by omega⟩
    · dsimp only at early ⊢
      rw [filled.buf]
      by_cases new : fill.idx ≤ place
      · have inner : fill.sub + (place - fill.idx) < blockDim := by
          have last := filled.inside
          omega
        have total : sub + place = fill.sub + (place - fill.idx) + blockDim * blocks := by omega
        rw [if_pos ⟨new, early⟩, total, Nat.add_mul_div_left _ _ (by omega),
          Nat.add_mul_mod_self_left, Nat.div_eq_of_lt inner, Nat.mod_eq_of_lt inner, map_eq,
          Nat.zero_add]
      · rw [if_neg (by omega)]
        exact buf place (by omega)
    · dsimp only at rest ⊢
      refine ⟨by omega, blocks + 1, by rw [filled.map, map_eq, Nat.add_assoc], ?_⟩
      rw [Nat.mul_succ]
      omega
  have initial : invariant ⟨0, sub, map, buf⟩ :=
    ⟨Nat.zero_le _, fun place early => absurd early (Nat.not_lt_zero place), fun _ =>
      ⟨inside, 0, rfl, by rw [Nat.mul_zero, Nat.zero_add, Nat.add_zero]⟩⟩
  obtain ⟨⟨bound, filled, _⟩, stopped⟩ := whileLoop_rule _ _ invariant
    (fun fill => length - fill.idx) round length ⟨0, sub, map, buf⟩ initial (Nat.sub_le ..)
  exact filled idx (lt_of_lt_of_le place (not_lt.1 (of_decide_eq_false stopped)))

end Fill

/-- The color of a pixel of the maze. -/
def pixelOf (blocks : Blocks) (maze : Maze) (pixel : Nat × Nat) : UInt8 :=
  blocks (findBlock maze (pixel.1 / blockXDim) (pixel.2 / blockYDim))
    (pixel.2 % blockYDim * blockXDim + pixel.1 % blockXDim)

theorem fillHorizBuffer_eq (blocks : Blocks) (maze : Maze) (x y : Nat) {idx : Nat}
    (place : idx < scrollXDim) :
    fillHorizBuffer blocks maze x y idx = pixelOf blocks maze (x + idx, y) := by
  rw [fillHorizBuffer, pixelOf]
  dsimp only
  rw [fillBuffer_buf _ _ _ _ (by dsimp only [blockXDim]; omega) place]
  have block : x / blockXDim + (x - x / blockXDim * blockXDim + idx) / blockXDim =
      (x + idx) / blockXDim := by
    dsimp only [blockXDim]
    omega
  have column : (x - x / blockXDim * blockXDim + idx) % blockXDim = (x + idx) % blockXDim := by
    dsimp only [blockXDim]
    omega
  have row : y - y / blockYDim * blockYDim = y % blockYDim := by
    dsimp only [blockYDim]
    omega
  rw [block, column, row]

theorem fillVertBuffer_eq (blocks : Blocks) (maze : Maze) (x y : Nat) {idx : Nat}
    (place : idx < scrollYDim) :
    fillVertBuffer blocks maze x y idx = pixelOf blocks maze (x, y + idx) := by
  rw [fillVertBuffer, pixelOf]
  dsimp only
  rw [fillBuffer_buf _ _ _ _ (by dsimp only [blockYDim]; omega) place]
  have block : y / blockYDim + (y - y / blockYDim * blockYDim + idx) / blockYDim =
      (y + idx) / blockYDim := by
    dsimp only [blockYDim]
    omega
  have row : (y - y / blockYDim * blockYDim + idx) % blockYDim = (y + idx) % blockYDim := by
    dsimp only [blockYDim]
    omega
  have column : x - x / blockXDim * blockXDim = x % blockXDim := by
    dsimp only [blockXDim]
    omega
  rw [block, row, column]

end ComputerSystems.Mp2
