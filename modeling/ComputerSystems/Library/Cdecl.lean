import ComputerSystems.Library.Ia32

namespace ComputerSystems.Library.Cdecl

open Ia32

/-- A processor whose stack segment and data segment have no byte in common. -/
structure Machine where
  register : Register → BitVec 32
  carry : Bool
  zero : Bool
  eip : BitVec 32
  stack : Memory
  data : Memory

inductive Width where
  | byte
  | word
  | long

namespace Width

/-- The bits of a value that an access of this width takes. -/
def part : Width → BitVec 32 → BitVec 32
  | byte, value => value &&& 0xFF
  | word, value => value &&& 0xFFFF
  | long, value => value

/-- A write of this width leaves the other bits of the old value. -/
def merge : Width → BitVec 32 → BitVec 32 → BitVec 32
  | byte, old, new => (old &&& 0xFFFFFF00) ||| (new &&& 0xFF)
  | word, old, new => (old &&& 0xFFFF0000) ||| (new &&& 0xFFFF)
  | long, _, new => new

end Width

inductive Address where
  | absolute (place : BitVec 32)
  | indirect (base : Register) (displacement : BitVec 32)
  | indexed (base index : Register)

/-- An address relative to the stack pointer or the frame pointer is in the stack segment. -/
def Address.inStack : Address → Bool
  | absolute _ => false
  | indirect base _ => base = .esp || base = .ebp
  | indexed base _ => base = .esp || base = .ebp

def Address.effective (machine : Machine) : Address → BitVec 32
  | absolute place => place
  | indirect base displacement => machine.register base + displacement
  | indexed base index => machine.register base + machine.register index

namespace Machine

def set (target : Register) (value : BitVec 32) (machine : Machine) : Machine :=
  { machine with register := Function.update machine.register target value }

def setFlags (carry zero : Bool) (machine : Machine) : Machine :=
  { machine with carry := carry, zero := zero }

def segment (machine : Machine) (address : Address) : Memory :=
  if address.inStack then machine.stack else machine.data

def load (width : Width) (address : Address) (machine : Machine) : BitVec 32 :=
  width.part (load32 (machine.segment address) (address.effective machine))

def store (width : Width) (address : Address) (value : BitVec 32) (machine : Machine) : Machine :=
  let place := address.effective machine
  let memory := machine.segment address
  let written := store32 place (width.merge (load32 memory place) value) memory
  if address.inStack then { machine with stack := written } else { machine with data := written }

def push (value : BitVec 32) (machine : Machine) : Machine :=
  { machine.set .esp (machine.register .esp - 4) with
    stack := store32 (machine.register .esp - 4) value machine.stack }

/-- The word on the top of the stack. -/
def top (machine : Machine) : BitVec 32 := load32 machine.stack (machine.register .esp)

def pop (target : Register) (machine : Machine) : Machine :=
  (machine.set .esp (machine.register .esp + 4)).set target machine.top

/-- The return pops its address. -/
def ret (machine : Machine) : Machine :=
  { machine.set .esp (machine.register .esp + 4) with eip := machine.top }

section
variable (machine : Machine) (value : BitVec 32)

@[simp]
theorem register_set (target name : Register) : (machine.set target value).register name =
    if name = target then value else machine.register name :=
  Function.update_apply ..

@[simp]
theorem register_push (name : Register) : (machine.push value).register name =
    if name = .esp then machine.register .esp - 4 else machine.register name :=
  register_set ..

@[simp]
theorem register_ret (name : Register) : machine.ret.register name =
    if name = .esp then machine.register .esp + 4 else machine.register name :=
  register_set ..

@[simp]
theorem stack_set (target : Register) : (machine.set target value).stack = machine.stack := rfl

@[simp]
theorem stack_push :
    (machine.push value).stack = store32 (machine.register .esp - 4) value machine.stack :=
  rfl

@[simp]
theorem stack_ret : machine.ret.stack = machine.stack := rfl

end

end Machine

inductive Operand where
  | immediate (value : BitVec 32)
  | register (name : Register)
  | memory (address : Address)

def Operand.value (width : Width) (machine : Machine) : Operand → BitVec 32
  | immediate value => width.part value
  | register name => width.part (machine.register name)
  | memory address => machine.load width address

/-- The instructions have their source before their target. A move to memory has a constructor of
its own, and so has a call of a function that is not part of the code. -/
inductive Instruction (Label Helper : Type) where
  | mov (width : Width) (source : Operand) (target : Register)
  | movTo (width : Width) (source : Operand) (target : Address)
  | movzwl (source : Operand) (target : Register)
  | xorl (source target : Register)
  | decw (target : Register)
  | shl (count : Nat) (target : Register)
  | shr (count : Nat) (target : Register)
  | addl (value : BitVec 32) (target : Register)
  | cmp (width : Width) (source : Operand) (target : Register)
  | pushl (source : Operand)
  | popl (target : Register)
  | leave
  | je (label : Label)
  | jne (label : Label)
  | ja (label : Label)
  | jmp (label : Label)
  | jmpTable (table : List Label) (index : Register)
  | call (label : Label)
  | callHelper (helper : Helper)
  | ret

/-- Where the control goes after an instruction. -/
inductive Control (Label Helper : Type) where
  | next
  | jump (label : Label)
  | call (label : Label)
  | helper (helper : Helper)
  | ret
  | stuck

section
variable {Label Helper : Type}

namespace Instruction

/-- The effect of an instruction that neither calls nor returns. -/
def effect (machine : Machine) : Instruction Label Helper → Machine
  | mov width source target =>
      machine.set target (width.merge (machine.register target) (source.value width machine))
  | movTo width source target => machine.store width target (source.value width machine)
  | movzwl source target => machine.set target (source.value .word machine)
  | xorl source target =>
      let result := machine.register target ^^^ machine.register source
      (machine.set target result).setFlags false (result == 0)
  | decw target =>
      let result := Width.word.part (machine.register target - 1)
      (machine.set target (Width.word.merge (machine.register target) result)).setFlags
        machine.carry (result == 0)
  | shl count target =>
      let result := machine.register target <<< count
      (machine.set target result).setFlags ((machine.register target).getLsbD (32 - count))
        (result == 0)
  | shr count target =>
      let result := machine.register target >>> count
      (machine.set target result).setFlags ((machine.register target).getLsbD (count - 1))
        (result == 0)
  | addl value target =>
      let result := machine.register target + value
      (machine.set target result).setFlags (result < value) (result == 0)
  | cmp width source target =>
      machine.setFlags
        (width.part (machine.register target) < source.value width machine)
        (width.part (machine.register target) == source.value width machine)
  | pushl source => machine.push (source.value .long machine)
  | popl target => machine.pop target
  | leave => (machine.set .esp (machine.register .ebp)).pop .ebp
  | je _ => machine
  | jne _ => machine
  | ja _ => machine
  | jmp _ => machine
  | jmpTable _ _ => machine
  | call _ => machine
  | callHelper _ => machine
  | ret => machine

def control (machine : Machine) : Instruction Label Helper → Control Label Helper
  | je label => if machine.zero then .jump label else .next
  | jne label => if machine.zero then .next else .jump label
  | ja label => if machine.carry || machine.zero then .next else .jump label
  | jmp label => .jump label
  | jmpTable table index =>
      match table[(machine.register index).toNat]? with
      | some label => .jump label
      | none => .stuck
  | call label => .call label
  | callHelper helper => .helper helper
  | ret => .ret
  | _ => .next

end Instruction

/-- A block ends at the first instruction that jumps, calls or returns, or at its end. -/
def block : List (Instruction Label Helper) → Machine → Control Label Helper × Machine
  | [], machine => (.next, machine)
  | instruction :: rest, machine =>
      match instruction.control machine with
      | .next => block rest (instruction.effect machine)
      | control => (control, machine)

section
variable {instruction : Instruction Label Helper} {machine : Machine}

theorem block_next (goes : instruction.control machine = .next)
    (rest : List (Instruction Label Helper)) :
    block (instruction :: rest) machine = block rest (instruction.effect machine) := by
  rw [block, goes]

theorem block_jump {label : Label} (goes : instruction.control machine = .jump label)
    (rest : List (Instruction Label Helper)) :
    block (instruction :: rest) machine = (.jump label, machine) := by
  rw [block, goes]

end

/-- The code has one block at each label and falls through to the next label. A call returns to the
next label. -/
structure Code (Label Helper : Type) where
  block : Label → List (Instruction Label Helper)
  next : Label → Option Label

/-- The code at its place in memory, with the functions that it calls. -/
structure Program (Label Helper : Type) extends Code Label Helper where
  address : Label → BitVec 32
  labelAt : BitVec 32 → Option Label
  labelAt_address : ∀ label, labelAt (address label) = some label
  helper : Helper → Machine → Machine

namespace Program

/-- The state after a block. The run ends at a return to an address outside the code, with the
machine, or where the control leads nowhere, without one. -/
def follow (program : Program Label Helper) (next : Option Label) :
    Control Label Helper × Machine → Option Machine ⊕ (Label × Machine)
  | (.next, machine) =>
      match next with
      | some next => .inr (next, machine)
      | none => .inl none
  | (.jump label, machine) => .inr (label, machine)
  | (.call label, machine) =>
      match next with
      | some next => .inr (label, machine.push (program.address next))
      | none => .inl none
  | (.helper helper, machine) =>
      match next with
      | some next => .inr (next, program.helper helper (machine.push (program.address next)))
      | none => .inl none
  | (.ret, machine) =>
      match program.labelAt machine.top with
      | some label => .inr (label, machine.ret)
      | none => .inl (some machine.ret)
  | (.stuck, _) => .inl none

def step (program : Program Label Helper) (state : Label × Machine) :
    Option Machine ⊕ (Label × Machine) :=
  program.follow (program.next state.1) (Cdecl.block (program.block state.1) state.2)

/-- The run from a label returns to an address outside the code. -/
def Returns (program : Program Label Helper) (label : Label) (machine after : Machine) : Prop :=
  ∃ fuel, returnLoop program.step fuel (label, machine) = some (some after)

/-- The run goes on with the state after a step. -/
theorem returns_of_step {program : Program Label Helper} {label next : Label}
    {machine middle after : Machine} (stepped : program.step (label, machine) = .inr (next, middle))
    (returns : program.Returns label machine after) : program.Returns next middle after := by
  obtain ⟨fuel, ran⟩ := returns
  cases fuel with
  | zero => cases ran
  | succ fuel =>
      rw [returnLoop, stepped] at ran
      exact ⟨fuel, ran⟩

theorem returns_step {program : Program Label Helper} {label next : Label}
    {machine middle after : Machine} (stepped : program.step (label, machine) = .inr (next, middle))
    (returns : program.Returns next middle after) : program.Returns label machine after := by
  obtain ⟨fuel, ran⟩ := returns
  refine ⟨fuel + 1, ?_⟩
  rw [returnLoop, stepped]
  exact ran

end Program

end

/-- The registers that a function leaves as they were. -/
def calleeSaved : List Register := [.ebx, .esi, .edi, .ebp]

/-- The convention for a function as its caller sees it. The arguments are the words behind the
return address; they belong to the function, and the stack behind them to the caller. -/
structure Keeps (arguments : Nat) (before after : Machine) : Prop where
  returned : after.eip = before.top
  saved : ∀ name ∈ calleeSaved, after.register name = before.register name
  popped : after.register .esp = before.register .esp + 4
  stack : ∀ place : BitVec 32,
    (before.register .esp).toNat + 4 + 4 * arguments ≤ place.toNat →
      after.stack place = before.stack place

end ComputerSystems.Library.Cdecl
