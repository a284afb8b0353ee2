import ComputerSystems.Construction.Kernel.MemoryRoutines

namespace ComputerSystems.Kernel
open ComputerSystems.Library ComputerSystems.Library.Ia32

/-- What the byte step and the word step of a routine do to an invariant of the bytes done. -/
structure Moves (bytewise : List (Instruction FillLabel)) (words : Instruction FillLabel)
    (operation : Processor → Processor) (address : BitVec 32) (count : Nat)
    (moved : Nat → Processor → Prop) : Prop where
  place : ∀ done processor, moved done processor →
    processor.register .edi = address + BitVec.ofNat 32 done
  stable : ∀ done processor after, moved done processor → after.memory = processor.memory →
    after.register .eax = processor.register .eax → after.register .esi = processor.register .esi →
      after.register .edi = processor.register .edi → moved done after
  byte : ∀ done processor, moved done processor → done < count →
    ∃ after, block bytewise processor = (.next, after) ∧ moved (done + 1) after ∧
      after.register .ecx = processor.register .ecx ∧
      after.register .edx = processor.register .edx ∧
      after.flag directionBit = processor.flag directionBit
  word : ∀ done processor, moved done processor → done + 4 ≤ count →
    processor.flag directionBit = false → moved (done + 4) (operation processor) ∧
      (operation processor).register .edx = processor.register .edx ∧
      (operation processor).flag directionBit = false
  effect : ∀ processor, words.effect processor = processor.rep operation
  control : ∀ processor, words.control processor = .next

/-- Some byte of the range lies on a word boundary. -/
def Aligns (address : BitVec 32) (count : Nat) : Prop :=
  ∃ index < count, (address + BitVec.ofNat 32 index) &&& 3 = 0

/-- The state of a routine at each of its labels. -/
def FillAt (address : BitVec 32) (count : Nat) (moved : Nat → Processor → Prop)
    (direction : Bool) : FillLabel × Processor → Prop
  | (.top, processor) => ∃ done ≤ count, moved done processor ∧
      processor.register .ecx = BitVec.ofNat 32 (count - done) ∧
      processor.flag directionBit = direction ∧ ¬ Aligns address done
  | (.aligned, processor) => ∃ done < count, moved done processor ∧
      processor.register .ecx = BitVec.ofNat 32 (count - done) ∧ Aligns address count
  | (.bottom, processor) => ∃ done ≤ count, moved done processor ∧
      processor.register .edx = BitVec.ofNat 32 (count - done) ∧
      processor.flag directionBit = false ∧ Aligns address count
  | (.done, processor) => moved count processor ∧
      (processor.flag directionBit = false ∧ Aligns address count ∨
        processor.flag directionBit = direction ∧ ¬ Aligns address count)

/-- The work left at each label. -/
def fillSize : FillLabel × Processor → Nat
  | (.top, processor) => 2 ^ 33 + (processor.register .ecx).toNat
  | (.aligned, _) => 2 ^ 32 + 1
  | (.bottom, processor) => (processor.register .edx).toNat + 1
  | (.done, _) => 0

section
variable {bytewise : List (Instruction FillLabel)} {words : Instruction FillLabel}
  {operation : Processor → Processor} {address : BitVec 32} {count : Nat}
  {moved : Nat → Processor → Prop} {direction : Bool} {processor : Processor}

/-- The routine goes on from a label to a state with less work left. -/
def Continues (bytewise : List (Instruction FillLabel)) (words : Instruction FillLabel)
    (invariant : FillLabel × Processor → Prop) (state : FillLabel × Processor) : Prop :=
  ∃ next, (fillRoutine bytewise words).step state = .inr next ∧ invariant next ∧
    fillSize next < fillSize state

theorem aligns_succ {done : Nat} (unaligned : ¬ Aligns address done)
    (own : ¬ (address + BitVec.ofNat 32 done) &&& 3 = 0) : ¬ Aligns address (done + 1) := by
  rintro ⟨index, bound, aligned⟩
  rcases Nat.lt_succ_iff_lt_or_eq.1 bound with earlier | rfl
  · exact unaligned ⟨index, earlier, aligned⟩
  · exact own aligned

theorem counter_eq_zero {left : Nat} (small : left < 2 ^ 32) :
    BitVec.ofNat 32 left = 0#32 ↔ left = 0 := by
  bv_omega

theorem counter_pred {done : Nat} (before : done < count) :
    BitVec.ofNat 32 (count - done) - 1 = BitVec.ofNat 32 (count - (done + 1)) := by
  rw [show count - done = count - (done + 1) + 1 by omega]
  bv_omega

/-- The first loop ends at the end of the range, goes on at a word boundary, or stores a byte. -/
theorem fillTop_continues (moves : Moves bytewise words operation address count moved)
    (small : count < 2 ^ 32) (inside : FillAt address count moved direction (.top, processor)) :
    Continues bytewise words (FillAt address count moved direction) (.top, processor) := by
  obtain ⟨done, bound, progress, counter, kept, unaligned⟩ := inside
  have place := moves.place done processor progress
  by_cases finished : processor.register .ecx = 0#32
  · have last : done = count := by
      rw [counter, counter_eq_zero (by omega)] at finished
      omega
    subst last
    refine ⟨(.done, processor.setStatus false 0), ?_, ?_, ?_⟩
    · simp [Routine.step, fillRoutine, block, Instruction.control, Instruction.effect,
        Instruction.result, Operand.value, finished]
    · exact ⟨moves.stable _ _ _ progress rfl rfl rfl rfl,
        Or.inr ⟨(Processor.direction_setStatus ..).trans kept, unaligned⟩⟩
    · simp [fillSize]
  · have before : done < count := by
      rw [counter, counter_eq_zero (by omega)] at finished
      omega
    let tested := (processor.setStatus false (processor.register .ecx)).setStatus false
      (processor.register .edi &&& 3)
    by_cases aligned : processor.register .edi &&& 3#32 = 0#32
    · refine ⟨(.aligned, tested), ?_, ?_, ?_⟩
      · simp [Routine.step, fillRoutine, block, Instruction.control, Instruction.effect,
          Instruction.result, Operand.value, finished, aligned, tested]
      · rw [place] at aligned
        exact ⟨done, before, moves.stable _ _ _ progress rfl rfl rfl rfl, counter,
          done, before, aligned⟩
      · simp only [fillSize]
        omega
    · have passed : block [.testl (.register .ecx) .ecx, .jz .done,
          .testl (.immediate 0x3) .edi, .jz FillLabel.aligned] processor = (.next, tested) := by
        simp [block, Instruction.control, Instruction.effect, Instruction.result, Operand.value,
          finished, aligned, tested]
      obtain ⟨after, stored, next, ecx, _, flag⟩ := moves.byte done tested
        (moves.stable _ _ _ progress rfl rfl rfl rfl) before
      let rest := after.register .ecx - 1
      let final := (after.setStatus (after.register .ecx < 1) rest).set .ecx rest
      refine ⟨(.top, final), ?_, ?_, ?_⟩
      · have ran : block ((fillRoutine bytewise words).code .top) processor =
            (.jump .top, final) := by
          change block (([_, _, _, _] ++ bytewise) ++ [_, _]) processor = _
          rw [List.append_assoc, block_append passed, block_append stored]
          rfl
        rw [Routine.step, ran]
      · rw [place] at aligned
        refine ⟨done + 1, before, moves.stable _ _ _ next rfl rfl rfl rfl, ?_, ?_,
          aligns_succ unaligned aligned⟩
        · change after.register .ecx - 1 = _
          rw [ecx, ← counter_pred before, ← counter]
          rfl
        · simp [final, flag, tested, kept]
      · have smaller : rest.toNat < (processor.register .ecx).toNat := by
          change (after.register .ecx - 1).toNat < _
          rw [ecx]
          change (processor.register .ecx - 1).toNat < _
          bv_omega
        exact Nat.add_lt_add_left smaller _

/-- The count splits into words and the bytes behind them. -/
theorem counter_split {left : Nat} (small : left < 2 ^ 32) :
    (BitVec.ofNat 32 left >>> 2).toNat = left / 4 ∧
      BitVec.ofNat 32 left &&& 3 = BitVec.ofNat 32 (left % 4) := by
  constructor
  · rw [BitVec.toNat_ushiftRight, BitVec.toNat_ofNat, Nat.mod_eq_of_lt small,
      Nat.shiftRight_eq_div_pow]
  · apply BitVec.eq_of_toNat_eq
    rw [BitVec.toNat_and, BitVec.toNat_ofNat, BitVec.toNat_ofNat, Nat.mod_eq_of_lt small,
      show (3 : BitVec 32).toNat = 2 ^ 2 - 1 from rfl, Nat.and_two_pow_sub_one_eq_mod]
    omega

/-- The words are stored upwards, and fewer than four bytes are left. -/
theorem fillAligned_continues (moves : Moves bytewise words operation address count moved)
    (small : count < 2 ^ 32)
    (inside : FillAt address count moved direction (.aligned, processor)) :
    Continues bytewise words (FillAt address count moved direction) (.aligned, processor) := by
  obtain ⟨done, before, progress, counter, aligns⟩ := inside
  obtain ⟨quotient, remainder⟩ := counter_split (show count - done < 2 ^ 32 by omega)
  rw [← counter] at quotient remainder
  obtain ⟨ready, passed, memory, eax, esi, edi, ecx, edx, flag⟩ : ∃ ready : Processor,
      block [.movwFrom .ds .edx, .movwTo .edx .es, .movl (.register .ecx) .edx, .shrl 2 .ecx,
        .andl (.immediate 0x3) .edx, (.cld : Instruction FillLabel)] processor = (.next, ready) ∧
      ready.memory = processor.memory ∧
      ready.register .eax = processor.register .eax ∧
      ready.register .esi = processor.register .esi ∧
      ready.register .edi = processor.register .edi ∧
      ready.register .ecx = processor.register .ecx >>> 2 ∧
      ready.register .edx = processor.register .ecx &&& 3 ∧
      ready.flag directionBit = false := by
    refine ⟨_, rfl, rfl, rfl, rfl, rfl, rfl, rfl, ?_⟩
    exact Processor.direction_setFlag ..
  have repeats := @Processor.rep_rule ready operation
    (fun round current => moved (done + 4 * round) current ∧
      current.register .edx = ready.register .edx ∧ current.flag directionBit = false)
    ⟨moves.stable _ _ _ progress memory eax esi edi, rfl, flag⟩ fun round current early kept => by
      rw [ecx, quotient] at early
      obtain ⟨next, edx, flag⟩ := moves.word _ _ kept.1 (by omega) kept.2.2
      exact ⟨moves.stable _ _ _ next rfl rfl rfl rfl, edx.trans kept.2.1, flag⟩
  rw [ecx, quotient] at repeats
  obtain ⟨progressed, rest, cleared⟩ := repeats
  refine ⟨(.bottom, ready.rep operation), ?_, ?_, ?_⟩
  · have ran : block ((fillRoutine bytewise words).code .aligned) processor =
        (.next, ready.rep operation) := by
      change block ([_, _, _, _, _, _] ++ [words]) processor = _
      rw [block_append passed, block, moves.control, moves.effect]
      rfl
    rw [Routine.step, ran]
    rfl
  · refine ⟨done + 4 * ((count - done) / 4), by omega, progressed, ?_, cleared, aligns⟩
    rw [rest, edx, remainder]
    congr 1
    omega
  · change ((ready.rep operation).register .edx).toNat + 1 < 2 ^ 32 + 1
    exact Nat.add_lt_add_right (BitVec.isLt _) 1

/-- The last loop stores the bytes that are left. -/
theorem fillBottom_continues (moves : Moves bytewise words operation address count moved)
    (small : count < 2 ^ 32)
    (inside : FillAt address count moved direction (.bottom, processor)) :
    Continues bytewise words (FillAt address count moved direction) (.bottom, processor) := by
  obtain ⟨done, bound, progress, counter, cleared, aligns⟩ := inside
  by_cases finished : processor.register .edx = 0#32
  · have last : done = count := by
      rw [counter, counter_eq_zero (by omega)] at finished
      omega
    subst last
    refine ⟨(.done, processor.setStatus false 0), ?_, ?_, ?_⟩
    · simp [Routine.step, fillRoutine, block, Instruction.control, Instruction.effect,
        Instruction.result, Operand.value, finished]
    · exact ⟨moves.stable _ _ _ progress rfl rfl rfl rfl,
        Or.inl ⟨(Processor.direction_setStatus ..).trans cleared, aligns⟩⟩
    · simp [fillSize]
  · have before : done < count := by
      rw [counter, counter_eq_zero (by omega)] at finished
      omega
    let tested := processor.setStatus false (processor.register .edx)
    have passed : block [.testl (.register .edx) .edx, .jz FillLabel.done] processor =
        (.next, tested) := by
      simp [block, Instruction.control, Instruction.effect, Instruction.result, Operand.value,
        finished, tested]
    obtain ⟨after, stored, next, _, edx, flag⟩ := moves.byte done tested
      (moves.stable _ _ _ progress rfl rfl rfl rfl) before
    let rest := after.register .edx - 1
    let final := (after.setStatus (after.register .edx < 1) rest).set .edx rest
    refine ⟨(.bottom, final), ?_, ?_, ?_⟩
    · have ran : block ((fillRoutine bytewise words).code .bottom) processor =
          (.jump .bottom, final) := by
        change block (([_, _] ++ bytewise) ++ [_, _]) processor = _
        rw [List.append_assoc, block_append passed, block_append stored]
        rfl
      rw [Routine.step, ran]
    · refine ⟨done + 1, before, moves.stable _ _ _ next rfl rfl rfl rfl, ?_, ?_, aligns⟩
      · change after.register .edx - 1 = _
        rw [edx, ← counter_pred before, ← counter]
        rfl
      · simp [final, flag, tested, cleared]
    · have smaller : rest.toNat < (processor.register .edx).toNat := by
        change (after.register .edx - 1).toNat < _
        rw [edx]
        change (processor.register .edx - 1).toNat < _
        bv_omega
      exact Nat.add_lt_add_right smaller 1

/-- The routine ends with all bytes done, and the direction flag is cleared on the way through a
word boundary. -/
theorem fillRoutine_ends (moves : Moves bytewise words operation address count moved)
    (small : count < 2 ^ 32)
    (initial : FillAt address count moved direction (.top, processor)) :
    ∃ after, (fillRoutine bytewise words).Ends .top processor after ∧
      FillAt address count moved direction (.done, after) := by
  obtain ⟨after, ended, final⟩ := @returnLoop_rule _ _ (fillRoutine bytewise words).step
    (FillAt address count moved direction) fillSize
    (fun after => FillAt address count moved direction (.done, after))
    (fun state after inside returned => by
      obtain ⟨label, current⟩ := state
      cases label with
      | top =>
          obtain ⟨_, continued, _⟩ := fillTop_continues moves small inside
          rw [continued] at returned
          cases returned
      | aligned =>
          obtain ⟨_, continued, _⟩ := fillAligned_continues moves small inside
          rw [continued] at returned
          cases returned
      | bottom =>
          obtain ⟨_, continued, _⟩ := fillBottom_continues moves small inside
          rw [continued] at returned
          cases returned
      | done =>
          cases returned
          exact inside)
    (fun state next inside continued => by
      obtain ⟨label, current⟩ := state
      cases label with
      | top =>
          obtain ⟨_, stepped, kept⟩ := fillTop_continues moves small inside
          cases stepped.symm.trans continued
          exact kept
      | aligned =>
          obtain ⟨_, stepped, kept⟩ := fillAligned_continues moves small inside
          cases stepped.symm.trans continued
          exact kept
      | bottom =>
          obtain ⟨_, stepped, kept⟩ := fillBottom_continues moves small inside
          cases stepped.symm.trans continued
          exact kept
      | done => cases continued)
    _ _ initial (Nat.lt_succ_self _)
  exact ⟨after, ⟨_, ended⟩, final⟩

/-- A call ends with all its bytes done. It clears the direction flag only on the way through a
word boundary. -/
theorem fillRoutine_runs {n : BitVec 32}
    (moves : Moves bytewise words operation address n.toNat moved) (initial : moved 0 processor)
    (counter : processor.register .ecx = n) :
    ∃ after, (fillRoutine bytewise words).Ends .top processor after ∧ moved n.toNat after ∧
      (after.flag directionBit = false ↔
        processor.flag directionBit = false ∨ Aligns address n.toNat) := by
  have start : FillAt address n.toNat moved (processor.flag directionBit) (.top, processor) := by
    refine ⟨0, Nat.zero_le _, initial, ?_, rfl, ?_⟩
    · rw [counter, Nat.sub_zero, BitVec.ofNat_toNat, BitVec.setWidth_eq]
    · rintro ⟨index, none, _⟩
      exact Nat.not_lt_zero index none
  obtain ⟨after, ended, progress, flag⟩ := fillRoutine_ends moves n.isLt start
  refine ⟨after, ended, progress, ?_⟩
  rcases flag with ⟨cleared, aligns⟩ | ⟨kept, unaligned⟩
  · exact iff_of_true cleared (Or.inr aligns)
  · rw [kept, or_iff_left unaligned]

end

/-- The bytes of a range take new values, and no other byte changes. -/
structure Fills (address n : BitVec 32) (value : Nat → BitVec 8) (before after : Memory) :
    Prop where
  inside : ∀ index < n.toNat, after (address + BitVec.ofNat 32 index) = value index
  outside : ∀ place, place < address ∨ address.toNat + n.toNat ≤ place.toNat →
    after place = before place

theorem fills_of_written {address n : BitVec 32} {value : Nat → BitVec 8} {before after : Memory}
    (fits : address.toNat + n.toNat ≤ 2 ^ 32)
    (written : Written address 0 n.toNat value before after) :
    Fills address n value before after := by
  constructor
  case inside =>
    intro index bound
    have size := n.isLt
    have own : (address + BitVec.ofNat 32 index - address).toNat = index :=
      (sub_toNat_eq_iff (by omega)).2 rfl
    rw [written, own, if_pos ⟨Nat.zero_le _, bound⟩]
  case outside =>
    intro place apart
    rw [written, if_neg]
    bv_omega

section
variable {s c n dest src : BitVec 32} {processor : Processor}

/-- The register that `memset` stores holds the byte four times. -/
theorem byteOf_pattern (c : BitVec 32) {index : Nat} (inside : index < 4) :
    byteOf ((c &&& 0xFF) <<< 24 ||| (c &&& 0xFF) <<< 16 ||| (c &&& 0xFF) <<< 8 ||| (c &&& 0xFF))
      index = byteOf c 0 := by
  have mask (bit : Nat) : BitVec.getLsbD (0xFF : BitVec 32) bit = decide (bit < 8) := by
    rw [show (0xFF : BitVec 32) = BitVec.ofNat 32 (2 ^ 8 - 1) from rfl, BitVec.getLsbD_ofNat,
      Nat.testBit_two_pow_sub_one]
    grind
  apply BitVec.eq_of_getLsbD_eq
  intro bit low
  unfold byteOf
  simp only [BitVec.getLsbD_extractLsb', BitVec.getLsbD_or, BitVec.getLsbD_shiftLeft,
    BitVec.getLsbD_and, mask]
  interval_cases index
  · simp [low]
    grind
  · simp [low]
    grind
  · simp [low]
    grind
  · simp [low]
    grind

/-- The bytes that `memset` has stored so far. -/
def SetSoFar (s c : BitVec 32) (before : Memory) (done : Nat) (processor : Processor) : Prop :=
  processor.register .edi = s + BitVec.ofNat 32 done ∧
    (∀ index < 4, byteOf (processor.register .eax) index = byteOf c 0) ∧
      Written s 0 done (fun _ => byteOf c 0) before processor.memory

theorem memset_moves (s c : BitVec 32) (before : Memory) {count : Nat} (small : count < 2 ^ 32) :
    Moves [.movbStore .edi, .addl (.immediate 1) .edi] .repStosl Processor.stosl s count
      (SetSoFar s c before) where
  place _ _ progress := progress.1
  stable done processor after progress memory eax _ edi := by
    unfold SetSoFar
    rw [memory, eax, edi]
    exact progress
  byte done processor progress early := by
    obtain ⟨edi, bytes, written⟩ := progress
    refine ⟨_, rfl, ⟨?_, bytes, ?_⟩, rfl, rfl, ?_⟩
    · change processor.register .edi + 1 = _
      rw [edi]
      bv_omega
    · change Written s 0 (done + 1) _ before (Function.update processor.memory
        (processor.register .edi) (byteOf (processor.register .eax) 0))
      rw [bytes 0 (by decide), edi]
      exact written.up (Nat.zero_le _) (by omega)
    · exact Processor.direction_setStatus ..
  word done processor progress early cleared := by
    obtain ⟨edi, bytes, written⟩ := progress
    have stride := Processor.stride_of_clear cleared 4
    refine ⟨⟨?_, bytes, ?_⟩, rfl, cleared⟩
    · change processor.register .edi + processor.stride 4 = _
      rw [stride, edi]
      bv_omega
    · have stored := written.word (Nat.zero_le _) (by omega) bytes
      rw [← edi] at stored
      exact stored
  effect _ := rfl
  control _ := rfl

/-- The routine ends with the bytes set. It clears the direction flag only on the way through a
word boundary. -/
theorem memset_ends (s c n : BitVec 32) (processor : Processor) :
    ∃ after, memset.Ends .top (memsetStart s c n processor) after ∧
      Written s 0 n.toNat (fun _ => byteOf c 0) processor.memory after.memory ∧
      (after.flag directionBit = false ↔
        processor.flag directionBit = false ∨ Aligns s n.toNat) := by
  have initial : SetSoFar s c processor.memory 0 (memsetStart s c n processor) :=
    ⟨(BitVec.add_zero s).symm, fun index low => byteOf_pattern c low,
      Written.nothing s 0 _ processor.memory⟩
  obtain ⟨after, ended, progress, flag⟩ :=
    fillRoutine_runs (memset_moves s c processor.memory n.isLt) initial rfl
  exact ⟨after, ended, progress.2.2, flag⟩

/-- No byte of the source lies in the destination. -/
def Apart (dest src n : BitVec 32) : Prop :=
  dest.toNat + n.toNat ≤ src.toNat ∨ src.toNat + n.toNat ≤ dest.toNat

/-- The bytes that a copy takes from the source. -/
def sourceByte (src : BitVec 32) (before : Memory) (index : Nat) : BitVec 8 :=
  before (src + BitVec.ofNat 32 index)

/-- The bytes that `memcpy` has copied so far. -/
def CopiedSoFar (dest src : BitVec 32) (before : Memory) (done : Nat) (processor : Processor) :
    Prop :=
  processor.register .edi = dest + BitVec.ofNat 32 done ∧
    processor.register .esi = src + BitVec.ofNat 32 done ∧
      Written dest 0 done (sourceByte src before) before processor.memory

/-- A source byte behind the copied ones is still the old one. -/
theorem unread_byte {first last : Nat} {before memory : Memory} {index : Nat}
    (written : Written dest first last (sourceByte src before) before memory)
    (apart : (src + BitVec.ofNat 32 index - dest).toNat < first ∨
      last ≤ (src + BitVec.ofNat 32 index - dest).toNat) :
    memory (src + BitVec.ofNat 32 index) = sourceByte src before index := by
  rw [written, if_neg (by omega)]
  rfl

theorem apart_unread {done index : Nat} (destFits : dest.toNat + n.toNat ≤ 2 ^ 32)
    (srcFits : src.toNat + n.toNat ≤ 2 ^ 32) (apart : Apart dest src n) (bound : done ≤ n.toNat)
    (inside : index < n.toNat) : done ≤ (src + BitVec.ofNat 32 index - dest).toNat := by
  unfold Apart at apart
  bv_omega

theorem memcpy_moves (before : Memory) (destFits : dest.toNat + n.toNat ≤ 2 ^ 32)
    (srcFits : src.toNat + n.toNat ≤ 2 ^ 32) (apart : Apart dest src n) :
    Moves [.movbLoad .esi, .movbStore .edi, .addl (.immediate 1) .edi, .addl (.immediate 1) .esi]
      .repMovsl Processor.movsl dest n.toNat (CopiedSoFar dest src before) where
  place _ _ progress := progress.1
  stable done processor after progress memory _ esi edi := by
    unfold CopiedSoFar
    rw [memory, esi, edi]
    exact progress
  byte done processor progress early := by
    obtain ⟨edi, esi, written⟩ := progress
    have size := n.isLt
    have loaded (high : BitVec 24) (low : BitVec 8) : byteOf (high ++ low) 0 = low := by
      apply BitVec.eq_of_getLsbD_eq
      intro bit inside
      unfold byteOf
      simp only [BitVec.getLsbD_extractLsb', BitVec.getLsbD_append]
      grind
    refine ⟨_, rfl, ⟨?_, ?_, ?_⟩, rfl, rfl, ?_⟩
    · change processor.register .edi + 1 = _
      rw [edi]
      bv_omega
    · change processor.register .esi + 1 = _
      rw [esi]
      bv_omega
    · change Written dest 0 (done + 1) _ before (Function.update processor.memory
        (processor.register .edi) (byteOf (_ ++ processor.memory (processor.register .esi)) 0))
      rw [loaded, edi, esi, unread_byte written
        (Or.inr (apart_unread destFits srcFits apart early.le early))]
      exact written.up (Nat.zero_le _) (by omega)
    · exact (Processor.direction_setStatus ..).trans (Processor.direction_setStatus ..)
  word done processor progress early cleared := by
    obtain ⟨edi, esi, written⟩ := progress
    have size := n.isLt
    have stride := Processor.stride_of_clear cleared 4
    refine ⟨⟨?_, ?_, ?_⟩, rfl, cleared⟩
    · change processor.register .edi + processor.stride 4 = _
      rw [stride, edi]
      bv_omega
    · change processor.register .esi + processor.stride 4 = _
      rw [stride, esi]
      bv_omega
    · change Written dest 0 (done + 4) _ before (store32 (processor.register .edi)
        (load32 processor.memory (processor.register .esi)) processor.memory)
      rw [edi, esi]
      apply written.word (Nat.zero_le _) (by omega)
      intro index low
      rw [byteOf_load32 _ _ low, BitVec.add_assoc, ← BitVec.ofNat_add]
      exact unread_byte written
        (Or.inr (apart_unread destFits srcFits apart (by omega) (by omega)))
  effect _ := rfl
  control _ := rfl

theorem memcpy_ends (processor : Processor) (destFits : dest.toNat + n.toNat ≤ 2 ^ 32)
    (srcFits : src.toNat + n.toNat ≤ 2 ^ 32) (apart : Apart dest src n) :
    ∃ after, memcpy.Ends .top (copyStart dest src n processor) after ∧
      Written dest 0 n.toNat (sourceByte src processor.memory) processor.memory after.memory ∧
      (after.flag directionBit = false ↔
        processor.flag directionBit = false ∨ Aligns dest n.toNat) := by
  have initial : CopiedSoFar dest src processor.memory 0 (copyStart dest src n processor) :=
    ⟨(BitVec.add_zero dest).symm, (BitVec.add_zero src).symm,
      Written.nothing dest 0 _ processor.memory⟩
  obtain ⟨after, ended, progress, flag⟩ :=
    fillRoutine_runs (memcpy_moves processor.memory destFits srcFits apart) initial rfl
  exact ⟨after, ended, progress.2.2, flag⟩

/-- The first block chooses the direction, and the second copies all bytes. -/
theorem memmove_ends_of {processor ready : Processor}
    (chosen : block (memmove.code .start) processor = (.jump .go, ready) ∨
      block (memmove.code .start) processor = (.next, ready)) :
    memmove.Ends .start processor (ready.rep Processor.movsb) := by
  have first : memmove.step (.start, processor) = .inr (.go, ready) := by
    rcases chosen with jumped | fell
    · rw [Routine.step, jumped]
    · rw [Routine.step, fell]
      rfl
  refine ⟨2, ?_⟩
  rw [returnLoop, first]
  rfl

/-- An upward copy from above reads a byte that it has not stored yet. -/
theorem upwards_unread {count done : Nat} (order : dest ≤ src) (early : done < count)
    (fits : src.toNat + count ≤ 2 ^ 32) : done ≤ (src + BitVec.ofNat 32 done - dest).toNat := by
  rw [BitVec.le_def] at order
  have sum : (src + BitVec.ofNat 32 done).toNat = src.toNat + done := by
    rw [BitVec.toNat_add, BitVec.toNat_ofNat, Nat.mod_eq_of_lt (show done < 2 ^ 32 by omega),
      Nat.mod_eq_of_lt (by omega)]
  rw [BitVec.toNat_sub_of_le (by rw [BitVec.le_def, sum]; omega), sum]
  omega

/-- A downward copy from below reads a byte that it has not stored yet. -/
theorem downwards_unread {count done : Nat} (order : src < dest) (early : done < count)
    (fits : dest.toNat + count ≤ 2 ^ 32) :
    (src + BitVec.ofNat 32 (count - (done + 1)) - dest).toNat < count - done ∨
      count ≤ (src + BitVec.ofNat 32 (count - (done + 1)) - dest).toNat := by
  rw [BitVec.lt_def] at order
  have size := dest.isLt
  have sum : (src + BitVec.ofNat 32 (count - (done + 1))).toNat =
      src.toNat + (count - (done + 1)) := by
    rw [BitVec.toNat_add, BitVec.toNat_ofNat,
      Nat.mod_eq_of_lt (show count - (done + 1) < 2 ^ 32 by omega), Nat.mod_eq_of_lt (by omega)]
  rw [BitVec.toNat_sub, sum]
  omega

/-- The pointers of a downward copy start at the last byte. -/
theorem downwards_place (address : BitVec 32) {done : Nat} (early : done < n.toNat) :
    address + n - 1 - BitVec.ofNat 32 done =
      address + BitVec.ofNat 32 (n.toNat - (done + 1)) := by
  have left : BitVec.ofNat 32 (n.toNat - (done + 1)) = n - 1 - BitVec.ofNat 32 done := by
    bv_omega
  rw [left]
  simp only [BitVec.sub_eq_add_neg, BitVec.add_assoc]

theorem downwards_pred (address : BitVec 32) (done : Nat) :
    address - BitVec.ofNat 32 done + -1 = address - BitVec.ofNat 32 (done + 1) := by
  bv_omega

/-- An upward copy reads each byte before it is overwritten, since the source is not below. -/
theorem movsb_upwards {ready : Processor}
    (srcFits : src.toNat + n.toNat ≤ 2 ^ 32) (order : dest ≤ src)
    (edi : ready.register .edi = dest) (esi : ready.register .esi = src)
    (ecx : ready.register .ecx = n) (upwards : ready.flag directionBit = false) :
    Written dest 0 n.toNat (sourceByte src ready.memory) ready.memory
        (ready.rep Processor.movsb).memory ∧
      (ready.rep Processor.movsb).flag directionBit = false := by
  have repeats := @Processor.rep_rule ready Processor.movsb
    (fun done current => CopiedSoFar dest src ready.memory done current ∧
      current.flag directionBit = false)
    ⟨⟨by rw [edi]; exact (BitVec.add_zero dest).symm, by rw [esi]; exact (BitVec.add_zero src).symm,
      Written.nothing dest 0 _ ready.memory⟩, upwards⟩ fun done current early kept => by
      obtain ⟨⟨edi, esi, written⟩, cleared⟩ := kept
      rw [ecx] at early
      have size := n.isLt
      have stride := Processor.stride_of_clear cleared 1
      refine ⟨⟨?_, ?_, ?_⟩, cleared⟩
      · change current.register .edi + current.stride 1 = _
        rw [stride, edi]
        bv_omega
      · change current.register .esi + current.stride 1 = _
        rw [stride, esi]
        bv_omega
      · change Written dest 0 (done + 1) _ ready.memory (Function.update current.memory
          (current.register .edi) (current.memory (current.register .esi)))
        rw [edi, esi, unread_byte written (Or.inr (upwards_unread order early srcFits))]
        exact written.up (Nat.zero_le _) (by omega)
  rw [ecx] at repeats
  exact ⟨repeats.1.2.2, repeats.2⟩

/-- A downward copy reads each byte before it is overwritten, since the source is below. -/
theorem movsb_downwards {ready : Processor} (destFits : dest.toNat + n.toNat ≤ 2 ^ 32)
    (order : src < dest) (edi : ready.register .edi = dest + n - 1)
    (esi : ready.register .esi = src + n - 1) (ecx : ready.register .ecx = n)
    (downwards : ready.flag directionBit = true) :
    Written dest 0 n.toNat (sourceByte src ready.memory) ready.memory
        (ready.rep Processor.movsb).memory ∧
      (ready.rep Processor.movsb).flag directionBit = true := by
  have repeats := @Processor.rep_rule ready Processor.movsb
    (fun done current => (current.register .edi = dest + n - 1 - BitVec.ofNat 32 done ∧
      current.register .esi = src + n - 1 - BitVec.ofNat 32 done ∧
      Written dest (n.toNat - done) n.toNat (sourceByte src ready.memory) ready.memory
        current.memory) ∧ current.flag directionBit = true)
    ⟨⟨by rw [edi]; exact (BitVec.sub_zero _).symm, by rw [esi]; exact (BitVec.sub_zero _).symm,
      Written.nothing dest n.toNat _ ready.memory⟩, downwards⟩ fun done current early kept => by
      obtain ⟨⟨edi, esi, written⟩, set⟩ := kept
      rw [ecx] at early
      have size := n.isLt
      have stride := Processor.stride_of_set set 1
      refine ⟨⟨?_, ?_, ?_⟩, set⟩
      · change current.register .edi + current.stride 1 = _
        rw [stride, edi, downwards_pred]
      · change current.register .esi + current.stride 1 = _
        rw [stride, esi, downwards_pred]
      · have target := edi.trans (downwards_place dest early)
        have source := esi.trans (downwards_place src early)
        change Written dest (n.toNat - (done + 1)) n.toNat _ ready.memory
          (Function.update current.memory (current.register .edi)
            (current.memory (current.register .esi)))
        rw [target, source,
          unread_byte written (downwards_unread order early destFits)]
        rw [show n.toNat - done = n.toNat - (done + 1) + 1 by omega] at written
        exact written.down (by omega) (by omega)
  rw [ecx, Nat.sub_self] at repeats
  exact ⟨repeats.1.2.2, repeats.2⟩

/-- The bytes are moved in both directions, and a downward copy leaves the direction flag set. -/
theorem memmove_ends (processor : Processor) (destFits : dest.toNat + n.toNat ≤ 2 ^ 32)
    (srcFits : src.toNat + n.toNat ≤ 2 ^ 32) :
    ∃ after, memmove.Ends .start (copyStart dest src n processor) after ∧
      Written dest 0 n.toNat (sourceByte src processor.memory) processor.memory after.memory ∧
      (after.flag directionBit = false ↔ dest ≤ src) := by
  obtain ⟨compared, passed, memory, edi, esi, ecx, carry, flag⟩ : ∃ compared : Processor,
      block [.movwFrom .ds .edx, .movwTo .edx .es, .cld,
        (.cmpl (.register .edi) .esi : Instruction MoveLabel)] (copyStart dest src n processor) =
          (.next, compared) ∧
      compared.memory = processor.memory ∧ compared.register .edi = dest ∧
      compared.register .esi = src ∧ compared.register .ecx = n ∧
      compared.flag carryBit = decide (src < dest) ∧ compared.flag directionBit = false := by
    refine ⟨_, rfl, rfl, rfl, rfl, rfl, ?_, ?_⟩
    · exact Processor.carry_setStatus ..
    · exact (Processor.direction_setStatus ..).trans (Processor.direction_setFlag ..)
  have split : memmove.code .start = [.movwFrom .ds .edx, .movwTo .edx .es, .cld,
      .cmpl (.register .edi) .esi] ++ [.jae .go, .leal (-1) .esi .ecx .esi,
        .leal (-1) .edi .ecx .edi, .std] :=
    rfl
  by_cases order : dest ≤ src
  · have unset : compared.flag carryBit = false := by
      rw [carry, decide_eq_false (BitVec.not_lt.2 order)]
    have chosen : block (memmove.code .start) (copyStart dest src n processor) =
        (.jump .go, compared) := by
      rw [split, block_append passed, block, Instruction.control, unset]
      rfl
    obtain ⟨written, cleared⟩ := movsb_upwards srcFits order edi esi ecx flag
    rw [memory] at written
    exact ⟨_, memmove_ends_of (Or.inl chosen), written, iff_of_true cleared order⟩
  · have below : src < dest := BitVec.not_le.1 order
    have set : compared.flag carryBit = true := by
      rw [carry, decide_eq_true below]
    let ready := ((compared.set .esi (src + n - 1)).set .edi (dest + n - 1)).setFlag directionBit
      true
    have chosen : block (memmove.code .start) (copyStart dest src n processor) =
        (.next, ready) := by
      have back (address : BitVec 32) : address + -1 = address - 1 :=
        (BitVec.sub_eq_add_neg ..).symm
      rw [split, block_append passed, block, Instruction.control, set]
      change (Control.next, ((compared.set .esi (compared.register .esi + compared.register .ecx +
        -1)).set .edi (compared.register .edi + compared.register .ecx + -1)).setFlag directionBit
          true) = _
      rw [esi, edi, ecx, back, back]
    obtain ⟨written, set⟩ := movsb_downwards destFits below
      (show ready.register .edi = dest + n - 1 from rfl) rfl ecx (Processor.direction_setFlag ..)
    have before : ready.memory = processor.memory := memory
    rw [before] at written
    refine ⟨_, memmove_ends_of (Or.inr chosen), written, iff_of_false ?_ order⟩
    rw [set]
    exact Bool.noConfusion

/-- The operation of a routine ends with the right bytes and with a clear direction flag. -/
def MemsetRight (s c n : BitVec 32) (processor : Processor) : Prop :=
  ∃ after, memset.Ends .top (memsetStart s c n processor) after ∧
    Fills s n (fun _ => byteOf c 0) processor.memory after.memory ∧
      after.flag directionBit = false

def MemcpyRight (dest src n : BitVec 32) (processor : Processor) : Prop :=
  ∃ after, memcpy.Ends .top (copyStart dest src n processor) after ∧
    Fills dest n (sourceByte src processor.memory) processor.memory after.memory ∧
      after.flag directionBit = false

def MemmoveRight (dest src n : BitVec 32) (processor : Processor) : Prop :=
  ∃ after, memmove.Ends .start (copyStart dest src n processor) after ∧
    Fills dest n (sourceByte src processor.memory) processor.memory after.memory ∧
      after.flag directionBit = false

/-- The routines are right exactly when no byte moves upwards in memory, and the direction flag is
clear before the call or a routine comes to a word boundary. -/
theorem memoryRoutines_right_iff (processor : Processor)
    (destFits : dest.toNat + n.toNat ≤ 2 ^ 32) (srcFits : src.toNat + n.toNat ≤ 2 ^ 32) :
    (MemsetRight dest c n processor ∧ (Apart dest src n → MemcpyRight dest src n processor) ∧
        MemmoveRight dest src n processor) ↔
      dest ≤ src ∧ (processor.flag directionBit = false ∨ Aligns dest n.toNat) := by
  obtain ⟨set, setEnds, setBytes, setFlag⟩ := memset_ends dest c n processor
  obtain ⟨moved, moveEnds, moveBytes, moveFlag⟩ := memmove_ends processor destFits srcFits
  constructor
  · rintro ⟨⟨otherSet, otherSetEnds, _, otherSetFlag⟩, _, otherMoved, otherMoveEnds, _,
      otherMoveFlag⟩
    obtain rfl := setEnds.unique otherSetEnds
    obtain rfl := moveEnds.unique otherMoveEnds
    exact ⟨moveFlag.1 otherMoveFlag, setFlag.1 otherSetFlag⟩
  · rintro ⟨order, clears⟩
    refine ⟨⟨set, setEnds, fills_of_written destFits setBytes, setFlag.2 clears⟩, fun apart => ?_,
      moved, moveEnds, fills_of_written destFits moveBytes, moveFlag.2 order⟩
    obtain ⟨copied, copyEnds, copyBytes, copyFlag⟩ := memcpy_ends processor destFits srcFits apart
    exact ⟨copied, copyEnds, fills_of_written destFits copyBytes, copyFlag.2 clears⟩

end

/-- A processor that C code runs on. -/
def idleProcessor : Processor where
  register _ := 0
  segment _ := 0x18
  eip := 0
  eflags := 2
  memory _ := 0

theorem memoryRoutines_right_iff_below :
    MemsetRight 0x1000 7 16 idleProcessor ∧
      (Apart 0x1000 0x2000 16 → MemcpyRight 0x1000 0x2000 16 idleProcessor) ∧
        MemmoveRight 0x1000 0x2000 16 idleProcessor :=
  (memoryRoutines_right_iff idleProcessor (by decide) (by decide)).2 ⟨by decide, Or.inl (by decide)⟩

/-- A move to a higher address returns with the direction flag set. -/
theorem memmove_leaves_flag : ¬ MemmoveRight 0x2000 0x1000 16 idleProcessor := by
  rintro ⟨after, ends, _, cleared⟩
  obtain ⟨moved, moveEnds, _, flag⟩ := @memmove_ends 16 0x2000 0x1000 idleProcessor (by decide)
    (by decide)
  obtain rfl := moveEnds.unique ends
  exact absurd (flag.1 cleared) (by decide)

end ComputerSystems.Kernel
