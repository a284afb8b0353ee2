import ComputerSystems.Construction.Kernel.ContextSwitchCode

namespace ComputerSystems.Kernel
open ComputerSystems.Library ComputerSystems.Library.Ia32

/-- The arguments of a call are behind its return address, and the caller is the kernel. -/
structure Called (eip esp ebp : BitVec 32) (processor : Processor) : Prop where
  privilege : processor.privilege = 0
  eip : processor.stackWord 4 = eip
  esp : processor.stackWord 8 = esp
  ebp : processor.stackWord 12 = ebp

/-- The code leaves for an address with a stack, a frame, and interrupts on. -/
def Switches (code : List (Instruction Empty)) (privilege : BitVec 16) (eip esp ebp : BitVec 32)
    (processor : Processor) : Prop :=
  ∃ after, block code processor = (.leave, after) ∧ after.privilege = privilege ∧
    after.eip = eip ∧ after.register .esp = esp ∧ after.register .ebp = ebp ∧
      after.flag interruptBit = true

/-- The stack and the registers before the return of a switch. -/
structure Prepared (dataSegment codeSegment : BitVec 32) (before after : Processor) : Prop where
  segment : after.segment = before.segment
  top : after.register .esp = before.register .esp - 20
  frame : after.register .ebp = before.stackWord 12
  eip : after.stackWord 0 = before.stackWord 4
  cs : after.stackWord 4 = codeSegment
  interrupts : (after.stackWord 8).getLsbD interruptBit = true
  esp : after.stackWord 12 = before.stackWord 8
  ss : after.stackWord 16 = dataSegment

/-- The code pushes all that a return to a lower privilege pops. -/
theorem switchCode_prepared (dataSegment codeSegment : BitVec 32) (processor : Processor) :
    ∃ prepared, block (switchCode dataSegment codeSegment) processor = (.leave, prepared.iret) ∧
      Prepared dataSegment codeSegment processor prepared := by
  let loaded := (((processor.setFlag interruptBit false).set .ecx (processor.stackWord 4)).set .edx
    (processor.stackWord 8)).set .ebp (processor.stackWord 12)
  let arranged := (loaded.push dataSegment).push (processor.stackWord 8)
  let saved := arranged.push (arranged.eflags &&& 0x00FCFFFF)
  let restored := (saved.set .esp (saved.register .esp + 4)).set .eax (saved.stackWord 0)
  let flags := restored.register .eax ||| 0x200
  let marked := (restored.setStatus false flags).set .eax flags
  let prepared := ((marked.push flags).push codeSegment).push (processor.stackWord 4)
  have words (offset : BitVec 32) (inside : offset.toNat + 8 ≤ 2 ^ 32) :
      marked.stackWord offset = arranged.stackWord offset := by
    have top : marked.register .esp = saved.register .esp + 4 := by
      simp [marked, restored]
    have memory : marked.memory = saved.memory := rfl
    rw [← arranged.stackWord_push (arranged.eflags &&& 0x00FCFFFF) offset inside,
      Processor.stackWord, Processor.stackWord, memory, top,
      BitVec.add_assoc, BitVec.add_comm 4 offset]
  refine ⟨prepared, ?_, ?_⟩
  · rfl
  · obtain ⟨eip, cs, eflags, esp, ss⟩ := marked.stackWord_push_three flags codeSegment
      (processor.stackWord 4)
    constructor
    case segment => rfl
    case top =>
      simp [prepared, marked, restored, saved, arranged, loaded]
      bv_omega
    case frame => rfl
    case eip => exact eip
    case cs => exact cs
    case interrupts =>
      have set : BitVec.getLsbD (0x200 : BitVec 32) interruptBit = true := by decide
      rw [eflags, BitVec.getLsbD_or, set, Bool.or_true]
    case esp => rw [esp, words 0 (by decide), Processor.stackWord_push_zero]
    case ss =>
      rw [ss, words 4 (by decide), show (4 : BitVec 32) = 0 + 4 from rfl,
        Processor.stackWord_push _ _ _ (by decide), Processor.stackWord_push_zero]

section
variable {eip esp ebp : BitVec 32} {processor : Processor}

/-- A return to the same privilege leaves the stack pointer behind the three popped words. -/
theorem kernelContextSwitch_leaves (called : Called eip esp ebp processor) :
    ∃ after, block kernelContextSwitch processor = (.leave, after) ∧ after.privilege = 0 ∧
      after.eip = eip ∧ after.register .esp = processor.register .esp - 8 ∧
        after.register .ebp = ebp ∧ after.flag interruptBit = true := by
  obtain ⟨prepared, ran, words⟩ := switchCode_prepared kernelDs kernelCs processor
  have kernel : prepared.privilege = 0 := by
    rw [Processor.privilege, words.segment]
    exact called.privilege
  have same : ¬ prepared.privilege < (prepared.stackWord 4).setWidth 16 &&& 3 := by
    rw [kernel, words.cs]
    decide
  obtain ⟨privilege, address, flags, top, frame⟩ := prepared.iret_same same
  refine ⟨prepared.iret, ran, ?_, ?_, ?_, ?_, ?_⟩
  · rw [privilege, words.cs]
    decide
  · rw [address, words.eip, called.eip]
  · rw [top, words.top]
    bv_omega
  · rw [frame, words.frame, called.ebp]
  · rw [Processor.flag, flags, words.interrupts]

theorem contextSwitch_switches (called : Called eip esp ebp processor) :
    Switches contextSwitch 3 eip esp ebp processor := by
  obtain ⟨prepared, ran, words⟩ := switchCode_prepared userDs userCs processor
  have kernel : prepared.privilege = 0 := by
    rw [Processor.privilege, words.segment]
    exact called.privilege
  have lower : prepared.privilege < (prepared.stackWord 4).setWidth 16 &&& 3 := by
    rw [kernel, words.cs]
    decide
  obtain ⟨privilege, address, flags, top, frame⟩ := prepared.iret_lower lower
  refine ⟨prepared.iret, ran, ?_, ?_, ?_, ?_, ?_⟩
  · rw [privilege, words.cs]
    decide
  · rw [address, words.eip, called.eip]
  · rw [top, words.esp, called.esp]
  · rw [frame, words.frame, called.ebp]
  · rw [Processor.flag, flags, words.interrupts]

/-- Both switches arrive as asked exactly when the stack to resume is already the one in use, two
words above the return address of the call. -/
theorem contextSwitches_iff (called : Called eip esp ebp processor) :
    Switches contextSwitch 3 eip esp ebp processor ∧
        Switches kernelContextSwitch 0 eip esp ebp processor ↔
      esp = processor.register .esp - 8 := by
  obtain ⟨after, ran, privilege, address, stack, frame, interrupts⟩ :=
    kernelContextSwitch_leaves called
  constructor
  · rintro ⟨_, other, left, _, _, top, _⟩
    rw [ran, Prod.mk.injEq] at left
    rw [← top, ← left.2, stack]
  · intro same
    exact ⟨contextSwitch_switches called, after, ran, privilege, address, stack.trans same.symm,
      frame, interrupts⟩

end

/-- A processor in the kernel that calls a switch to `0x400000` with the frame `0x7FDF20`. -/
def callingProcessor (stack : BitVec 32) : Processor where
  register name := if name = .esp then 0x7FFF00 else 0
  segment _ := 0x10
  eip := 0
  eflags := 2
  memory := store32 0x7FFF0C 0x7FDF20 (store32 0x7FFF08 stack (store32 0x7FFF04 0x400000
    fun _ => 0))

theorem contextSwitches_iff_calling :
    Switches contextSwitch 3 0x400000 0x7FFEF8 0x7FDF20 (callingProcessor 0x7FFEF8) ∧
      Switches kernelContextSwitch 0 0x400000 0x7FFEF8 0x7FDF20 (callingProcessor 0x7FFEF8) :=
  (contextSwitches_iff (by constructor <;> decide +kernel)).2 (by decide +kernel)

/-- The switch to another kernel stack stays on the stack of the caller. -/
theorem kernelContextSwitch_keeps_stack :
    Called 0x400000 0x7FDF00 0x7FDF20 (callingProcessor 0x7FDF00) ∧
      ¬ Switches kernelContextSwitch 0 0x400000 0x7FDF00 0x7FDF20 (callingProcessor 0x7FDF00) := by
  have called : Called 0x400000 0x7FDF00 0x7FDF20 (callingProcessor 0x7FDF00) := by
    constructor <;> decide +kernel
  refine ⟨called, ?_⟩
  rintro ⟨after, left, _, _, top, _⟩
  obtain ⟨other, ran, _, _, stack, _⟩ := kernelContextSwitch_leaves called
  rw [ran, Prod.mk.injEq] at left
  rw [← left.2, stack] at top
  exact absurd top (by decide +kernel)

end ComputerSystems.Kernel
