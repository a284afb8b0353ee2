import ComputerSystems.Library.Loop

namespace ComputerSystems.Library.Ia32

inductive Register where
  | eax
  | ecx
  | edx
  | ebx
  | esp
  | ebp
  | esi
  | edi
  deriving DecidableEq

inductive Segment where
  | cs
  | ds
  | es
  | ss
  deriving DecidableEq

abbrev Memory := BitVec 32 → BitVec 8

abbrev carryBit : Nat := 0
abbrev zeroBit : Nat := 6
abbrev interruptBit : Nat := 9
abbrev directionBit : Nat := 10

/-- A processor with flat segments. -/
structure Processor where
  register : Register → BitVec 32
  segment : Segment → BitVec 16
  eip : BitVec 32
  eflags : BitVec 32
  memory : Memory

def byteOf (value : BitVec 32) (index : Nat) : BitVec 8 := value.extractLsb' (8 * index) 8

/-- The low byte comes first. -/
def load32 (memory : Memory) (address : BitVec 32) : BitVec 32 :=
  memory (address + 3) ++ memory (address + 2) ++ memory (address + 1) ++ memory address

def store32 (address value : BitVec 32) (memory : Memory) : Memory :=
  Function.update (Function.update (Function.update (Function.update memory
    address (byteOf value 0)) (address + 1) (byteOf value 1))
    (address + 2) (byteOf value 2)) (address + 3) (byteOf value 3)

def setBit (bit : Nat) (value : Bool) (word : BitVec 32) : BitVec 32 :=
  if value then word ||| 1#32 <<< bit else word &&& ~~~(1#32 <<< bit)

namespace Processor

def flag (processor : Processor) (bit : Nat) : Bool := processor.eflags.getLsbD bit

def setFlag (bit : Nat) (value : Bool) (processor : Processor) : Processor :=
  { processor with eflags := setBit bit value processor.eflags }

def set (target : Register) (value : BitVec 32) (processor : Processor) : Processor :=
  { processor with register := Function.update processor.register target value }

def setSegment (target : Segment) (value : BitVec 16) (processor : Processor) : Processor :=
  { processor with segment := Function.update processor.segment target value }

def write (memory : Memory) (processor : Processor) : Processor :=
  { processor with memory := memory }

/-- The current privilege level. -/
def privilege (processor : Processor) : BitVec 16 := processor.segment .cs &&& 3

def push (value : BitVec 32) (processor : Processor) : Processor :=
  (processor.write (store32 (processor.register .esp - 4) value processor.memory)).set .esp
    (processor.register .esp - 4)

/-- The word at an offset from the top of the stack. -/
def stackWord (processor : Processor) (offset : BitVec 32) : BitVec 32 :=
  load32 processor.memory (processor.register .esp + offset)

/-- The status flags that the conditional jumps below test. -/
def setStatus (carry : Bool) (result : BitVec 32) (processor : Processor) : Processor :=
  (processor.setFlag carryBit carry).setFlag zeroBit (result == 0)

/-- The stack pointer and its segment are popped only on a return to a lower privilege. -/
def iret (processor : Processor) : Processor :=
  let top := processor.register .esp
  let selector := (processor.stackWord 4).setWidth 16
  let returned := { processor.setSegment .cs selector with
    eip := processor.stackWord 0
    eflags := processor.stackWord 8 }
  if processor.privilege < selector &&& 3 then
    (returned.set .esp (processor.stackWord 12)).setSegment .ss
      ((processor.stackWord 16).setWidth 16)
  else returned.set .esp (top + 12)

/-- The step of a string instruction. -/
def stride (processor : Processor) (size : BitVec 32) : BitVec 32 :=
  if processor.flag directionBit then -size else size

def stosl (processor : Processor) : Processor :=
  (processor.write (store32 (processor.register .edi) (processor.register .eax)
    processor.memory)).set .edi (processor.register .edi + processor.stride 4)

def movsl (processor : Processor) : Processor :=
  ((processor.write (store32 (processor.register .edi)
    (load32 processor.memory (processor.register .esi)) processor.memory)).set .edi
      (processor.register .edi + processor.stride 4)).set .esi
        (processor.register .esi + processor.stride 4)

def movsb (processor : Processor) : Processor :=
  ((processor.write (Function.update processor.memory (processor.register .edi)
    (processor.memory (processor.register .esi)))).set .edi
      (processor.register .edi + processor.stride 1)).set .esi
        (processor.register .esi + processor.stride 1)

/-- One round of a repeated string instruction. -/
def repeated (operation : Processor → Processor) (processor : Processor) : Processor :=
  (operation processor).set .ecx ((operation processor).register .ecx - 1)

/-- A repeated string instruction counts down to zero. -/
def rep (operation : Processor → Processor) (processor : Processor) : Processor :=
  (repeated operation)^[(processor.register .ecx).toNat] processor

end Processor

inductive Operand where
  | immediate (value : BitVec 32)
  | register (name : Register)
  | memory (base : Register) (displacement : BitVec 32)

def Operand.value (processor : Processor) : Operand → BitVec 32
  | immediate value => value
  | register name => processor.register name
  | memory base displacement => load32 processor.memory (processor.register base + displacement)

/-- The instructions have their source before their target. -/
inductive Instruction (Label : Type) where
  | cli
  | cld
  | std
  | movl (source : Operand) (target : Register)
  | movbLoad (base : Register)
  | movbStore (base : Register)
  | movwFrom (source : Segment) (target : Register)
  | movwTo (source : Register) (target : Segment)
  | leal (displacement : BitVec 32) (base index target : Register)
  | pushl (source : Operand)
  | popl (target : Register)
  | pushfl
  | testl (source : Operand) (target : Register)
  | cmpl (source : Operand) (target : Register)
  | addl (source : Operand) (target : Register)
  | subl (source : Operand) (target : Register)
  | andl (source : Operand) (target : Register)
  | orl (source : Operand) (target : Register)
  | shrl (count : Nat) (target : Register)
  | repStosl
  | repMovsl
  | repMovsb
  | jz (label : Label)
  | jae (label : Label)
  | jmp (label : Label)
  | iret

/-- Where the control goes after an instruction. -/
inductive Control (Label : Type) where
  | next
  | jump (label : Label)
  | leave

section
variable {Label : Type}

namespace Instruction

def result (processor : Processor) (operation : BitVec 32 → BitVec 32 → BitVec 32)
    (source : Operand) (target : Register) : BitVec 32 :=
  operation (processor.register target) (source.value processor)

/-- The effect of an instruction on the registers and the memory. The byte register is `al`, and
the pushed flags come without the two flags of the virtual mode. -/
def effect (processor : Processor) : Instruction Label → Processor
  | cli => processor.setFlag interruptBit false
  | cld => processor.setFlag directionBit false
  | std => processor.setFlag directionBit true
  | movl source target => processor.set target (source.value processor)
  | movbLoad base => processor.set .eax
      ((processor.register .eax).extractLsb' 8 24 ++ processor.memory (processor.register base))
  | movbStore base => processor.write (Function.update processor.memory
      (processor.register base) (byteOf (processor.register .eax) 0))
  | movwFrom source target => processor.set target
      ((processor.register target).extractLsb' 16 16 ++ processor.segment source)
  | movwTo source target =>
      processor.setSegment target ((processor.register source).setWidth 16)
  | leal displacement base index target =>
      processor.set target (processor.register base + processor.register index + displacement)
  | pushl source => processor.push (source.value processor)
  | popl target =>
      (processor.set .esp (processor.register .esp + 4)).set target (processor.stackWord 0)
  | pushfl => processor.push (processor.eflags &&& 0x00FCFFFF)
  | testl source target => processor.setStatus false (result processor (· &&& ·) source target)
  | cmpl source target =>
      processor.setStatus (processor.register target < source.value processor)
        (result processor (· - ·) source target)
  | addl source target =>
      (processor.setStatus (result processor (· + ·) source target < processor.register target)
        (result processor (· + ·) source target)).set target
          (result processor (· + ·) source target)
  | subl source target =>
      (processor.setStatus (processor.register target < source.value processor)
        (result processor (· - ·) source target)).set target
          (result processor (· - ·) source target)
  | andl source target =>
      (processor.setStatus false (result processor (· &&& ·) source target)).set target
        (result processor (· &&& ·) source target)
  | orl source target =>
      (processor.setStatus false (result processor (· ||| ·) source target)).set target
        (result processor (· ||| ·) source target)
  | shrl count target =>
      (processor.setStatus ((processor.register target).getLsbD (count - 1))
        (processor.register target >>> count)).set target (processor.register target >>> count)
  | repStosl => processor.rep Processor.stosl
  | repMovsl => processor.rep Processor.movsl
  | repMovsb => processor.rep Processor.movsb
  | jz _ => processor
  | jae _ => processor
  | jmp _ => processor
  | iret => processor.iret

def control (processor : Processor) : Instruction Label → Control Label
  | jz label => if processor.flag zeroBit then .jump label else .next
  | jae label => if processor.flag carryBit then .next else .jump label
  | jmp label => .jump label
  | iret => .leave
  | _ => .next

end Instruction

/-- A block ends at the first instruction that jumps or leaves, or at its end. -/
def block : List (Instruction Label) → Processor → Control Label × Processor
  | [], processor => (.next, processor)
  | instruction :: rest, processor =>
      match instruction.control processor with
      | .next => block rest (instruction.effect processor)
      | .jump label => (.jump label, instruction.effect processor)
      | .leave => (.leave, instruction.effect processor)

/-- A routine has one block at each label and falls through to the next label or to its end. -/
structure Routine (Label : Type) where
  code : Label → List (Instruction Label)
  next : Label → Option Label

namespace Routine

def step (routine : Routine Label) (state : Label × Processor) :
    Processor ⊕ (Label × Processor) :=
  match block (routine.code state.1) state.2 with
  | (.jump label, after) => .inr (label, after)
  | (.leave, after) => .inl after
  | (.next, after) =>
      match routine.next state.1 with
      | some label => .inr (label, after)
      | none => .inl after

/-- The routine ends within some number of blocks. -/
def Ends (routine : Routine Label) (start : Label) (processor after : Processor) : Prop :=
  ∃ fuel, returnLoop routine.step fuel (start, processor) = some after

theorem Ends.unique {routine : Routine Label} {start : Label} {processor first second : Processor}
    (one : routine.Ends start processor first) (two : routine.Ends start processor second) :
    first = second := by
  obtain ⟨_, reached⟩ := one
  obtain ⟨_, other⟩ := two
  exact returnLoop_unique reached other

end Routine

end

theorem getLsbD_setBit {bit other : Nat} (inside : other < 32) (value : Bool)
    (word : BitVec 32) :
    (setBit bit value word).getLsbD other = if bit = other then value else word.getLsbD other := by
  have one : (1#32 <<< bit).getLsbD other = decide (bit = other) := by
    rw [BitVec.getLsbD_shiftLeft, BitVec.getLsbD_one]
    by_cases below : other < bit
    · simp [below, show bit ≠ other by omega]
    · by_cases same : bit = other
      · simp [same, inside]
      · simp [same, below, show other - bit ≠ 0 by omega]
  unfold setBit
  cases value with
  | true =>
      rw [if_pos rfl, BitVec.getLsbD_or, one]
      by_cases same : bit = other
      · simp [same]
      · simp [same]
  | false =>
      rw [if_neg Bool.false_ne_true, BitVec.getLsbD_and, BitVec.getLsbD_not, one]
      by_cases same : bit = other
      · simp [same]
      · simp [same, inside]

/-- A byte of a loaded word is a byte of the memory. -/
theorem byteOf_load32 (memory : Memory) (address : BitVec 32) {index : Nat} (inside : index < 4) :
    byteOf (load32 memory address) index = memory (address + BitVec.ofNat 32 index) := by
  apply BitVec.eq_of_getLsbD_eq
  intro bit low
  unfold byteOf load32
  simp only [BitVec.getLsbD_extractLsb', BitVec.getLsbD_append]
  interval_cases index
  · simp [low]
  · simp [low]
  · simp [low]
    grind
  · simp [low]
    grind

/-- Four bytes of a word make the word. -/
theorem load32_eq {memory : Memory} {address value : BitVec 32}
    (bytes : ∀ index < 4, memory (address + BitVec.ofNat 32 index) = byteOf value index) :
    load32 memory address = value := by
  have first := bytes 0 (by decide)
  rw [BitVec.add_zero] at first
  unfold load32
  rw [first, show memory (address + 1) = _ from bytes 1 (by decide),
    show memory (address + 2) = _ from bytes 2 (by decide),
    show memory (address + 3) = _ from bytes 3 (by decide)]
  apply BitVec.eq_of_getLsbD_eq
  intro bit low
  unfold byteOf
  simp only [BitVec.getLsbD_append, BitVec.getLsbD_extractLsb']
  grind

theorem sub_toNat_eq_iff {place address : BitVec 32} {index : Nat} (inside : index < 2 ^ 32) :
    (place - address).toNat = index ↔ place = address + BitVec.ofNat 32 index := by
  bv_omega

theorem store32_apply (address value place : BitVec 32) (memory : Memory) :
    store32 address value memory place =
      if (place - address).toNat < 4 then byteOf value (place - address).toNat
      else memory place := by
  have last : place = address + 3 ↔ (place - address).toNat = 3 :=
    (sub_toNat_eq_iff (by decide)).symm
  have third : place = address + 2 ↔ (place - address).toNat = 2 :=
    (sub_toNat_eq_iff (by decide)).symm
  have second : place = address + 1 ↔ (place - address).toNat = 1 :=
    (sub_toNat_eq_iff (by decide)).symm
  have first : place = address ↔ (place - address).toNat = 0 := by
    bv_omega
  unfold store32
  simp only [Function.update_apply, last, third, second, first]
  generalize (place - address).toNat = index
  by_cases inside : index < 4
  · interval_cases index <;> rfl
  · rw [if_neg (by omega), if_neg (by omega), if_neg (by omega), if_neg (by omega), if_neg inside]

/-- A stored word is read back. -/
theorem load32_store32 (memory : Memory) (address value : BitVec 32) :
    load32 (store32 address value memory) address = value := by
  apply load32_eq
  intro index inside
  have own : (address + BitVec.ofNat 32 index - address).toNat = index :=
    (sub_toNat_eq_iff (by omega)).2 rfl
  rw [store32_apply, own, if_pos inside]

/-- A store elsewhere leaves a word as it is. -/
theorem load32_store32_apart {memory : Memory} {address place value : BitVec 32}
    (apart : ∀ index < 4, 4 ≤ (place + BitVec.ofNat 32 index - address).toNat) :
    load32 (store32 address value memory) place = load32 memory place := by
  apply load32_eq
  intro index inside
  rw [store32_apply, if_neg (Nat.not_lt.2 (apart index inside)), byteOf_load32 memory place inside]

namespace Processor
variable (processor : Processor)

section
variable (target other : Register) (value : BitVec 32)

@[simp]
theorem register_set : (processor.set target value).register other =
    if other = target then value else processor.register other :=
  Function.update_apply ..

@[simp]
theorem memory_push : (processor.push value).memory =
    store32 (processor.register .esp - 4) value processor.memory :=
  rfl

@[simp]
theorem register_push : (processor.push value).register other =
    if other = .esp then processor.register .esp - 4 else processor.register other :=
  register_set ..

@[simp]
theorem register_setFlag (bit : Nat) (flag : Bool) :
    (processor.setFlag bit flag).register = processor.register :=
  rfl

@[simp]
theorem register_setStatus (carry : Bool) :
    (processor.setStatus carry value).register = processor.register :=
  rfl

@[simp]
theorem flag_set (bit : Nat) : (processor.set target value).flag bit = processor.flag bit := rfl

end

/-- The pushed word is on the top of the stack. -/
theorem stackWord_push_zero (value : BitVec 32) : (processor.push value).stackWord 0 = value := by
  have top : processor.register .esp - 4 + 0 = processor.register .esp - 4 := by simp
  rw [stackWord, memory_push, register_push, if_pos rfl, top, load32_store32]

/-- The words below the top are one word further down after a push. -/
theorem stackWord_push (value offset : BitVec 32) (inside : offset.toNat + 8 ≤ 2 ^ 32) :
    (processor.push value).stackWord (offset + 4) = processor.stackWord offset := by
  have place : processor.register .esp - 4 + (offset + 4) = processor.register .esp + offset := by
    bv_omega
  rw [stackWord, memory_push, register_push, if_pos rfl, place, stackWord]
  apply load32_store32_apart
  intro index low
  generalize processor.register .esp = top
  bv_omega

/-- Three pushed words lie above the words that were on the stack. -/
theorem stackWord_push_three (first second third : BitVec 32) :
    let pushed := ((processor.push first).push second).push third
    pushed.stackWord 0 = third ∧ pushed.stackWord 4 = second ∧ pushed.stackWord 8 = first ∧
      pushed.stackWord 12 = processor.stackWord 0 ∧
      pushed.stackWord 16 = processor.stackWord 4 := by
  have below (offset : BitVec 32) (inside : offset.toNat + 16 ≤ 2 ^ 32) :
      (((processor.push first).push second).push third).stackWord (offset + 4 + 4 + 4) =
        processor.stackWord offset := by
    rw [stackWord_push _ _ _ (by bv_omega), stackWord_push _ _ _ (by bv_omega),
      stackWord_push _ _ _ (by omega)]
  refine ⟨stackWord_push_zero .., ?_, ?_, below 0 (by decide), below 4 (by decide)⟩
  · rw [show (4 : BitVec 32) = 0 + 4 from rfl, stackWord_push _ _ _ (by decide),
      stackWord_push_zero]
  · rw [show (8 : BitVec 32) = 0 + 4 + 4 from rfl, stackWord_push _ _ _ (by decide),
      stackWord_push _ _ _ (by decide), stackWord_push_zero]

/-- A return to the same privilege pops three words. -/
theorem iret_same (same : ¬ processor.privilege < (processor.stackWord 4).setWidth 16 &&& 3) :
    processor.iret.privilege = (processor.stackWord 4).setWidth 16 &&& 3 ∧
      processor.iret.eip = processor.stackWord 0 ∧
      processor.iret.eflags = processor.stackWord 8 ∧
      processor.iret.register .esp = processor.register .esp + 12 ∧
      processor.iret.register .ebp = processor.register .ebp := by
  unfold iret
  dsimp only
  rw [if_neg same]
  exact ⟨rfl, rfl, rfl, rfl, rfl⟩

/-- A return to a lower privilege takes its stack pointer from the stack. -/
theorem iret_lower (lower : processor.privilege < (processor.stackWord 4).setWidth 16 &&& 3) :
    processor.iret.privilege = (processor.stackWord 4).setWidth 16 &&& 3 ∧
      processor.iret.eip = processor.stackWord 0 ∧
      processor.iret.eflags = processor.stackWord 8 ∧
      processor.iret.register .esp = processor.stackWord 12 ∧
      processor.iret.register .ebp = processor.register .ebp := by
  unfold iret
  dsimp only
  rw [if_pos lower]
  exact ⟨rfl, rfl, rfl, rfl, rfl⟩

theorem flag_setFlag {bit other : Nat} (inside : other < 32) (value : Bool) :
    (processor.setFlag bit value).flag other =
      if bit = other then value else processor.flag other :=
  getLsbD_setBit inside value processor.eflags

section
variable (carry : Bool) (result : BitVec 32)

@[simp]
theorem zero_setStatus : (processor.setStatus carry result).flag zeroBit = (result == 0) := by
  rw [setStatus, flag_setFlag _ (by decide), if_pos rfl]

@[simp]
theorem carry_setStatus : (processor.setStatus carry result).flag carryBit = carry := by
  rw [setStatus, flag_setFlag _ (by decide), if_neg (by decide), flag_setFlag _ (by decide),
    if_pos rfl]

@[simp]
theorem direction_setStatus :
    (processor.setStatus carry result).flag directionBit = processor.flag directionBit := by
  rw [setStatus, flag_setFlag _ (by decide), if_neg (by decide), flag_setFlag _ (by decide),
    if_neg (by decide)]

@[simp]
theorem direction_setFlag (value : Bool) :
    (processor.setFlag directionBit value).flag directionBit = value := by
  rw [flag_setFlag _ (by decide), if_pos rfl]

end

theorem stride_of_clear {processor : Processor} (cleared : processor.flag directionBit = false)
    (size : BitVec 32) : processor.stride size = size := by
  rw [stride, cleared, if_neg Bool.false_ne_true]

theorem stride_of_set {processor : Processor} (set : processor.flag directionBit = true)
    (size : BitVec 32) : processor.stride size = -size := by
  rw [stride, set, if_pos rfl]

/-- An invariant of the rounds of a repeated string instruction holds at its end. -/
theorem rep_rule {operation : Processor → Processor} (invariant : Nat → Processor → Prop)
    (initial : invariant 0 processor)
    (preserved : ∀ done current, done < (processor.register .ecx).toNat →
      invariant done current → invariant (done + 1) (repeated operation current)) :
    invariant (processor.register .ecx).toNat (processor.rep operation) := by
  unfold rep
  generalize (processor.register .ecx).toNat = count at preserved
  induction count with
  | zero => exact initial
  | succ count inductionHypothesis =>
      rw [Function.iterate_succ_apply']
      apply preserved count _ (Nat.lt_succ_self count)
      exact inductionHypothesis fun done current early => preserved done current (by omega)

end Processor

section
variable {Label : Type}

theorem block_append {first rest : List (Instruction Label)} {processor after : Processor}
    (passed : block first processor = (.next, after)) :
    block (first ++ rest) processor = block rest after := by
  induction first generalizing processor with
  | nil =>
      cases passed
      rfl
  | cons instruction others inductionHypothesis =>
      rw [block] at passed
      rw [List.cons_append, block]
      cases goes : instruction.control processor with
      | next =>
          rw [goes] at passed
          exact inductionHypothesis passed
      | jump label =>
          rw [goes] at passed
          cases passed
      | leave =>
          rw [goes] at passed
          cases passed

end

/-- The bytes of a range hold new values, and all other bytes are those from before. -/
def Written (address : BitVec 32) (first last : Nat) (value : Nat → BitVec 8)
    (before after : Memory) : Prop :=
  ∀ place, after place =
    if first ≤ (place - address).toNat ∧ (place - address).toNat < last then
      value (place - address).toNat
    else before place

namespace Written
variable {address : BitVec 32} {first last : Nat} {value : Nat → BitVec 8} {before after : Memory}

theorem nothing (address : BitVec 32) (first : Nat) (value : Nat → BitVec 8) (memory : Memory) :
    Written address first first value memory memory := by
  intro place
  rw [if_neg (by omega)]

/-- One more byte behind the range. -/
theorem up (written : Written address first last value before after) (order : first ≤ last)
    (inside : last < 2 ^ 32) :
    Written address first (last + 1) value before
      (Function.update after (address + BitVec.ofNat 32 last) (value last)) := by
  intro place
  rw [Function.update_apply, written place]
  simp only [← sub_toNat_eq_iff inside]
  generalize (place - address).toNat = index
  grind

/-- One more byte in front of the range. -/
theorem down (written : Written address (first + 1) last value before after)
    (order : first < last) (inside : last ≤ 2 ^ 32) :
    Written address first last value before
      (Function.update after (address + BitVec.ofNat 32 first) (value first)) := by
  intro place
  rw [Function.update_apply, written place]
  simp only [← sub_toNat_eq_iff (Nat.lt_of_lt_of_le order inside)]
  generalize (place - address).toNat = index
  grind

/-- One more word behind the range. -/
theorem word (written : Written address first last value before after) (order : first ≤ last)
    (inside : last + 4 ≤ 2 ^ 32) {stored : BitVec 32}
    (bytes : ∀ index < 4, byteOf stored index = value (last + index)) :
    Written address first (last + 4) value before
      (store32 (address + BitVec.ofNat 32 last) stored after) := by
  intro place
  have further : (place - (address + BitVec.ofNat 32 last)).toNat =
      ((place - address).toNat + (2 ^ 32 - last)) % 2 ^ 32 := by
    bv_omega
  have size := (place - address).isLt
  rw [store32_apply, written place, further]
  generalize (place - address).toNat = index at size
  rcases Nat.lt_or_ge index last with low | high
  · rw [Nat.mod_eq_of_lt (by omega), if_neg (by omega)]
    simp only [show index < last + 4 by omega, low]
  · rw [show index + (2 ^ 32 - last) = index - last + 2 ^ 32 by omega, Nat.add_mod_right,
      Nat.mod_eq_of_lt (by omega)]
    by_cases stored : index < last + 4
    · rw [if_pos (by omega), bytes _ (by omega), if_pos ⟨by omega, stored⟩,
        Nat.add_sub_of_le high]
    · rw [if_neg (by omega), if_neg (by omega), if_neg (by omega)]

end Written

end ComputerSystems.Library.Ia32
