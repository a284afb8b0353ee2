import ComputerSystems.Library.StackShape

namespace ComputerSystems.Library.Cdecl

open Ia32

/-- The address some words below the stack pointer of the origin. -/
def slot (origin : Machine) (words : Nat) : BitVec 32 :=
  origin.register .esp - BitVec.ofNat 32 (4 * words)

section
variable {origin : Machine} {words : Nat}

theorem slot_zero (origin : Machine) : slot origin 0 = origin.register .esp := BitVec.sub_zero _

theorem slot_toNat (room : 4 * words ≤ (origin.register .esp).toNat) :
    (slot origin words).toNat = (origin.register .esp).toNat - 4 * words := by
  unfold slot
  generalize origin.register .esp = top at room
  bv_omega

theorem slot_succ (origin : Machine) (words : Nat) :
    slot origin (words + 1) = slot origin words - 4 := by
  unfold slot
  generalize origin.register .esp = top
  bv_omega

theorem slot_succ_add (origin : Machine) (words : Nat) :
    slot origin (words + 1) + 4 = slot origin words := by
  rw [slot_succ, BitVec.sub_add_cancel]

theorem slot_add (origin : Machine) (words count : Nat) :
    slot origin (words + count) + BitVec.ofNat 32 (4 * count) = slot origin words := by
  unfold slot
  generalize origin.register .esp = top
  bv_omega

end

variable {Label Helper : Type}

/-- The word is what is known of it. -/
def Value.Holds (address : Label → BitVec 32) (origin : Machine) : Value Label → BitVec 32 → Prop
  | entry name, word => word = origin.register name
  | frame words, word => word = slot origin words
  | code label, word => word = address label
  | any, _ => True

/-- The stack holds what is known of its words. -/
def WordsHold (address : Label → BitVec 32) (origin : Machine) :
    List (Value Label) → Memory → Prop
  | [], _ => True
  | value :: words, stack =>
      value.Holds address origin (load32 stack (slot origin (words.length + 1))) ∧
        WordsHold address origin words stack

/-- The machine has a shape, and the stack from the origin on is as it was there. -/
structure Fits (address : Label → BitVec 32) (origin : Machine) (shape : Shape Label)
    (machine : Machine) : Prop where
  pointer : machine.register .esp = slot origin shape.words.length
  room : 4 * shape.words.length ≤ (origin.register .esp).toNat
  saved : ∀ name, (shape.get name).Holds address origin (machine.register name)
  words : WordsHold address origin shape.words machine.stack
  caller : ∀ place : BitVec 32, (origin.register .esp).toNat ≤ place.toNat →
    machine.stack place = origin.stack place

section
variable {address : Label → BitVec 32} {origin machine : Machine} {shape after : Shape Label}
variable {words : List (Value Label)} {stack other : Memory}

theorem load32_congr {place : BitVec 32} (inside : place.toNat + 4 ≤ 2 ^ 32)
    (same : ∀ byte : BitVec 32, place.toNat ≤ byte.toNat → other byte = stack byte) :
    load32 other place = load32 stack place := by
  unfold load32
  rw [same place (Nat.le_refl _), same (place + 1) (by bv_omega), same (place + 2) (by bv_omega),
    same (place + 3) (by bv_omega)]

/-- The words on the stack do not depend on the bytes below them. -/
theorem WordsHold.congr (hold : WordsHold address origin words stack)
    (room : 4 * words.length ≤ (origin.register .esp).toNat)
    (same : ∀ place : BitVec 32, (slot origin words.length).toNat ≤ place.toNat →
      other place = stack place) : WordsHold address origin words other := by
  induction words with
  | nil => exact trivial
  | cons value words ih =>
      have size := (origin.register .esp).isLt
      rw [List.length_cons] at room same
      have first := slot_toNat room
      have second := @slot_toNat origin words.length (by omega)
      constructor
      · rw [load32_congr (by omega) same]
        exact hold.1
      · exact ih hold.2 (by omega) fun place above => same place (by omega)

theorem wordsHold_replicate (count : Nat) :
    WordsHold address origin (List.replicate count .any ++ words) stack ↔
      WordsHold address origin words stack := by
  induction count with
  | zero => rw [List.replicate_zero, List.nil_append]
  | succ count ih =>
      rw [List.replicate_succ, List.cons_append, WordsHold, ih]
      exact and_iff_right trivial

/-- A pushed word leaves the stack above it. -/
theorem store32_below {top place value : BitVec 32} (room : 4 ≤ top.toNat)
    (above : top.toNat ≤ place.toNat) : store32 (top - 4) value stack place = stack place := by
  rw [store32_apply, if_neg]
  bv_omega

/-- What a register is set to is known of it, or nothing is; the rest stays. -/
theorem Shape.set_eq {value : Value Label} {target : Register}
    (known : shape.set value target = some after) :
    target ≠ .esp ∧ after.words = shape.words ∧
      (∀ name, name ≠ target → after.get name = shape.get name) ∧
      (after.get target = value ∨ after.get target = .any) := by
  cases target <;> cases known <;> refine ⟨by decide, rfl, ?_, by simp [get]⟩ <;>
    intro name apart <;> cases name <;> first | rfl | exact absurd rfl apart

namespace Fits

/-- Neither the flags nor the data segment belong to a shape. -/
theorem congr {next : Machine} (fits : Fits address origin shape machine)
    (registers : next.register = machine.register) (stack : next.stack = machine.stack) :
    Fits address origin shape next := by
  constructor
  · rw [registers]
    exact fits.pointer
  · exact fits.room
  · rw [registers]
    exact fits.saved
  · rw [stack]
    exact fits.words
  · rw [stack]
    exact fits.caller

theorem set {value : Value Label} {target : Register} {word : BitVec 32}
    (fits : Fits address origin shape machine) (known : shape.set value target = some after)
    (holds : value.Holds address origin word) :
    Fits address origin after (machine.set target word) := by
  obtain ⟨apart, words, others, own⟩ := Shape.set_eq known
  constructor
  · rw [words, Machine.register_set, if_neg apart.symm]
    exact fits.pointer
  · rw [words]
    exact fits.room
  · intro name
    rw [Machine.register_set]
    split
    · next same =>
      subst same
      rcases own with own | own <;> rw [own]
      · exact holds
      · exact trivial
    · next other =>
      rw [others name other]
      exact fits.saved name
  · rw [words]
    exact fits.words
  · exact fits.caller

/-- Other words are on the stack, and the other registers are the same. -/
theorem moved {next : Machine} (fits : Fits address origin shape machine)
    (pointer : next.register .esp = slot origin words.length)
    (room : 4 * words.length ≤ (origin.register .esp).toNat)
    (others : ∀ name, name ≠ .esp → next.register name = machine.register name)
    (hold : WordsHold address origin words next.stack)
    (caller : ∀ place : BitVec 32, (origin.register .esp).toNat ≤ place.toNat →
      next.stack place = machine.stack place) :
    Fits address origin { shape with words := words } next := by
  constructor
  · exact pointer
  · exact room
  · intro name
    by_cases same : name = .esp
    · subst same
      exact trivial
    · have saved := fits.saved name
      rw [others name same]
      cases name <;> exact saved
  · exact hold
  · intro place above
    rw [caller place above, fits.caller place above]

theorem push {value : Value Label} {room : Nat} {word : BitVec 32}
    (fits : Fits address origin shape machine) (known : shape.push room value = some after)
    (enough : 4 * room ≤ (origin.register .esp).toNat) (holds : value.Holds address origin word) :
    Fits address origin after (machine.push word) := by
  unfold Shape.push at known
  split at known
  · next inside =>
    cases known
    have bottom := slot_toNat fits.room
    have next : machine.register .esp - 4 = slot origin (shape.words.length + 1) := by
      rw [fits.pointer, slot_succ]
    have kept : ∀ place : BitVec 32, (slot origin shape.words.length).toNat ≤ place.toNat →
        (machine.push word).stack place = machine.stack place := by
      intro place above
      rw [Machine.stack_push, fits.pointer]
      exact store32_below (by omega) above
    apply fits.moved
    · rw [Machine.register_push, if_pos rfl, next, List.length_cons]
    · rw [List.length_cons]
      omega
    · intro name apart
      rw [Machine.register_push, if_neg apart]
    · constructor
      · rw [Machine.stack_push, next, load32_store32]
        exact holds
      · exact fits.words.congr fits.room kept
    · exact fun place above => kept place (by omega)
  · cases known

theorem wordsHold_drop (hold : WordsHold address origin words stack) (count : Nat) :
    WordsHold address origin (words.drop count) stack := by
  induction count generalizing words with
  | zero => exact hold
  | succ count ih =>
      cases words with
      | nil => exact trivial
      | cons value words => exact ih hold.2

theorem drop {count : Nat} (fits : Fits address origin shape machine)
    (known : shape.drop count = some after) :
    Fits address origin after
      (machine.set .esp (machine.register .esp + BitVec.ofNat 32 (4 * count))) := by
  unfold Shape.drop at known
  split at known
  · next inside =>
    cases known
    have room := fits.room
    have size : (shape.words.drop count).length = shape.words.length - count := List.length_drop
    apply fits.moved
    · have above := slot_add origin (shape.words.length - count) count
      rw [Nat.sub_add_cancel inside] at above
      rw [Machine.register_set, if_pos rfl, fits.pointer, size, above]
    · omega
    · intro name apart
      rw [Machine.register_set, if_neg apart]
    · exact wordsHold_drop fits.words count
    · exact fun _ _ => rfl
  · cases known

theorem pop {target : Register} (fits : Fits address origin shape machine)
    (known : shape.pop target = some after) :
    Fits address origin after (machine.pop target) := by
  unfold Shape.pop at known
  split at known
  · cases known
  · next value words split =>
    have hold := fits.words
    have room := fits.room
    have pointer := fits.pointer
    rw [split] at hold room pointer
    refine Fits.set ?_ known ?_
    · apply fits.moved
      · rw [Machine.register_set, if_pos rfl, pointer, List.length_cons, slot_succ_add]
      · rw [List.length_cons] at room
        omega
      · intro name apart
        rw [Machine.register_set, if_neg apart]
      · exact hold.2
      · exact fun _ _ => rfl
    · rw [Machine.top, pointer]
      exact hold.1

theorem value_holds (fits : Fits address origin shape machine) (source : Operand) :
    (shape.value source).Holds address origin (source.value .long machine) := by
  cases source with
  | immediate value => exact trivial
  | memory place => exact trivial
  | register name =>
      have saved := fits.saved name
      cases name with
      | esp => exact fits.pointer
      | _ => exact saved

/-- An instruction does to the machine what its transfer does to the shape. -/
theorem transfer {room : Nat} {instruction : Instruction Label Helper}
    (fits : Fits address origin shape machine)
    (known : shape.transfer room instruction = some after)
    (enough : 4 * room ≤ (origin.register .esp).toNat) :
    Fits address origin after (instruction.effect machine) := by
  cases instruction with
  | mov width source target =>
      cases width with
      | byte => exact fits.set known trivial
      | word => exact fits.set known trivial
      | long => exact fits.set known (fits.value_holds source)
  | movTo width source target =>
      rw [Shape.transfer] at known
      split at known
      · cases known
      · next data =>
        cases known
        rw [Instruction.effect, Machine.store]
        simp only [if_neg data]
        exact fits.congr rfl rfl
  | movzwl source target => exact fits.set known trivial
  | xorl source target => exact (fits.set known trivial).congr rfl rfl
  | decw target => exact (fits.set known trivial).congr rfl rfl
  | shl count target => exact (fits.set known trivial).congr rfl rfl
  | shr count target => exact (fits.set known trivial).congr rfl rfl
  | addl value target =>
      by_cases pointer : target = .esp
      · subst pointer
        rw [Shape.transfer] at known
        split at known
        · next aligned =>
          have whole : BitVec.ofNat 32 (4 * (value.toNat / 4)) = value := by
            rw [Nat.mul_div_cancel' (Nat.dvd_of_mod_eq_zero aligned), BitVec.ofNat_toNat,
              BitVec.setWidth_eq]
          have dropped := fits.drop known
          rw [whole] at dropped
          exact dropped.congr rfl rfl
        · cases known
      · have known : shape.set .any target = some after := by
          cases target <;> first | exact known | exact absurd rfl pointer
        exact (fits.set known trivial).congr rfl rfl
  | cmp width source target =>
      cases known
      exact fits.congr rfl rfl
  | pushl source => exact fits.push known enough (fits.value_holds source)
  | popl target => exact fits.pop known
  | leave =>
      rw [Shape.transfer] at known
      split at known
      · next words frame =>
        split at known
        · next inside =>
          obtain ⟨middle, dropped, popped⟩ := Option.bind_eq_some_iff.1 known
          have lowered := fits.drop dropped
          have base : machine.register .ebp = slot origin words := by
            have saved := fits.saved .ebp
            rwa [Shape.get, frame] at saved
          have above := slot_add origin words (shape.words.length - words)
          rw [Nat.add_sub_cancel' inside] at above
          rw [fits.pointer, above, ← base] at lowered
          exact lowered.pop popped
        · cases known
      · cases known
  | je label => exact Option.some.inj known ▸ fits
  | jne label => exact Option.some.inj known ▸ fits
  | ja label => exact Option.some.inj known ▸ fits
  | jmp label => exact Option.some.inj known ▸ fits
  | jmpTable table index => exact Option.some.inj known ▸ fits
  | call label => exact Option.some.inj known ▸ fits
  | callHelper helper => exact Option.some.inj known ▸ fits
  | ret => exact Option.some.inj known ▸ fits

/-- A function that keeps the convention leaves all words but its arguments. -/
theorem helper {room count : Nat} {label : Label} {next : Machine}
    {rest pushed : Shape Label} (fits : Fits address origin shape machine)
    (called : shape.push room (.code label) = some pushed)
    (enough : 4 * room ≤ (origin.register .esp).toNat) (dropped : shape.drop count = some rest)
    (keeps : Keeps count (machine.push (address label)) next) :
    Fits address origin { shape with words := List.replicate count .any ++ rest.words } next := by
  have frame := fits.push called enough rfl
  unfold Shape.push at called
  split at called
  · next inside =>
    cases called
    unfold Shape.drop at dropped
    split at dropped
    · next fewer =>
      cases dropped
      have room := frame.room
      have bottom := slot_toNat room
      have size : (List.replicate count (.any : Value Label) ++ shape.words.drop count).length =
          shape.words.length := by
        rw [List.length_append, List.length_replicate, List.length_drop]
        omega
      have same : ∀ place : BitVec 32,
          (origin.register .esp).toNat - 4 * (shape.words.length - count) ≤ place.toNat →
            next.stack place = (machine.push (address label)).stack place := by
        intro place above
        apply keeps.stack
        rw [frame.pointer, bottom]
        rw [List.length_cons] at room ⊢
        omega
      constructor
      · rw [size, keeps.popped, frame.pointer, List.length_cons, slot_succ_add]
      · rw [size]
        exact fits.room
      · intro name
        have saved := fits.saved name
        have kept := keeps.saved name
        rw [Machine.register_push] at kept
        cases name with
        | ebx | esi | edi | ebp =>
            rw [kept (by decide), if_neg (by decide)]
            exact saved
        | _ => exact trivial
      · apply (wordsHold_replicate count).2
        have hold := wordsHold_drop frame.words.2 count
        rw [List.length_cons] at room
        apply hold.congr
        · rw [List.length_drop]
          omega
        · intro place above
          rw [List.length_drop, slot_toNat (by omega)] at above
          exact same place above
      · intro place above
        rw [same place (by omega), frame.caller place above]
    · cases dropped
  · cases called

/-- What is said of the state is less than what is known. -/
theorem covers [DecidableEq Label] {known said : Value Label} {word : BitVec 32}
    (less : Shape.covers known said = true) (holds : known.Holds address origin word) :
    said.Holds address origin word := by
  rw [Shape.covers, Bool.or_eq_true, decide_eq_true_eq, decide_eq_true_eq] at less
  rcases less with rfl | rfl
  · exact trivial
  · exact holds

theorem le [DecidableEq Label] {said : Shape Label} (fits : Fits address origin shape machine)
    (less : shape.le said = true) : Fits address origin said machine := by
  simp only [Shape.le, Bool.and_eq_true, beq_iff_eq] at less
  obtain ⟨⟨⟨⟨⟨ebx, esi⟩, edi⟩, ebp⟩, size⟩, words⟩ := less
  constructor
  · rw [← size]
    exact fits.pointer
  · rw [← size]
    exact fits.room
  · intro name
    have saved := fits.saved name
    cases name with
    | ebx => exact covers ebx saved
    | esi => exact covers esi saved
    | edi => exact covers edi saved
    | ebp => exact covers ebp saved
    | _ => exact trivial
  · have hold := fits.words
    generalize shape.words = known at size words hold
    generalize said.words = rest at size words
    induction known generalizing rest with
    | nil =>
        rw [List.eq_nil_of_length_eq_zero size.symm]
        exact trivial
    | cons value known ih =>
        cases rest with
        | nil => cases size
        | cons other rest =>
            rw [List.zip_cons_cons, List.all_cons, Bool.and_eq_true] at words
            have size := Nat.succ.inj size
            constructor
            · rw [← size]
              exact covers words.1 hold.1
            · exact ih hold.2 rest size words.2
  · exact fits.caller

end Fits

end

section
variable {program : Program Label Helper} {origin machine : Machine} {shape : Shape Label}

/-- The state after a block is at one of the exits and has the shape known there. -/
def Reaches (program : Program Label Helper) (origin : Machine)
    (exits : List (Option Label × Shape Label)) : Option Machine ⊕ (Label × Machine) → Prop
  | .inr (label, machine) =>
      ∃ shape, (some label, shape) ∈ exits ∧ Fits program.address origin shape machine
  | .inl (some after) =>
      ∃ shape machine, (none, shape) ∈ exits ∧ shape.words = [] ∧
        Fits program.address origin shape machine ∧ after = machine.ret
  | .inl none => True

theorem Reaches.more {exits more : List (Option Label × Shape Label)}
    {state : Option Machine ⊕ (Label × Machine)} (reaches : Reaches program origin exits state)
    (subset : exits ⊆ more) : Reaches program origin more state := by
  match state with
  | .inr (label, machine) =>
      obtain ⟨shape, member, fits⟩ := reaches
      exact ⟨shape, subset member, fits⟩
  | .inl (some after) =>
      obtain ⟨shape, machine, member, empty, fits, same⟩ := reaches
      exact ⟨shape, machine, subset member, empty, fits, same⟩
  | .inl none => exact trivial

/-- The word behind the words of the function is the return address. -/
theorem Fits.top_eq (fits : Fits program.address origin shape machine) (empty : shape.words = [])
    (inside : (origin.register .esp).toNat + 4 ≤ 2 ^ 32) : machine.top = origin.top := by
  have pointer := fits.pointer
  rw [empty, List.length_nil, slot_zero] at pointer
  rw [Machine.top, pointer]
  exact load32_congr inside fits.caller

/-- A return inside the code goes to the label whose address was pushed. -/
theorem Fits.ret {label : Label} {words : List (Value Label)}
    (fits : Fits program.address origin shape machine)
    (split : shape.words = .code label :: words) :
    machine.top = program.address label ∧
      Fits program.address origin { shape with words := words } machine.ret := by
  have hold := fits.words
  have room := fits.room
  have pointer := fits.pointer
  rw [split] at hold room pointer
  constructor
  · rw [Machine.top, pointer]
    exact hold.1
  · apply fits.moved
    · rw [Machine.register_ret, if_pos rfl, pointer, List.length_cons, slot_succ_add]
    · rw [List.length_cons] at room
      omega
    · intro name apart
      rw [Machine.register_ret, if_neg apart]
    · exact hold.2
    · exact fun _ _ => rfl

/-- What holds of every state in a run of the code. -/
structure Callable (program : Program Label Helper) (typing : Typing Label Helper)
    (origin : Machine) : Prop where
  cdecl : ∀ helper machine, Keeps (typing.arguments helper) machine (program.helper helper machine)
  room : 4 * typing.room ≤ (origin.register .esp).toNat
  inside : (origin.register .esp).toNat + 4 ≤ 2 ^ 32
  outside : program.labelAt origin.top = none

/-- A block leads to its exits. -/
theorem reaches_exits {typing : Typing Label Helper} (callable : Callable program typing origin)
    {next : Option Label} {code : List (Instruction Label Helper)}
    {exits : List (Option Label × Shape Label)}
    (known : shape.exits typing.room typing.arguments next code = some exits)
    (fits : Fits program.address origin shape machine) :
    Reaches program origin exits (program.follow next (block code machine)) := by
  induction code generalizing shape machine exits with
  | nil =>
      rw [Shape.exits] at known
      obtain ⟨next, rfl, rfl⟩ := Option.map_eq_some_iff.1 known
      exact ⟨shape, List.mem_singleton.2 rfl, fits⟩
  | cons instruction rest ih =>
      -- A conditional jump goes to its label or through the rest of the block.
      have branch : ∀ (label : Label) (taken : Bool),
          (shape.exits typing.room typing.arguments next rest).map ((some label, shape) :: ·) =
            some exits →
          Reaches program origin exits (program.follow next
            (if taken then (.jump label, machine) else block rest machine)) := by
        intro label taken known
        obtain ⟨more, rests, rfl⟩ := Option.map_eq_some_iff.1 known
        cases taken with
        | true => exact ⟨shape, List.mem_cons_self, fits⟩
        | false => exact (ih rests fits).more (List.subset_cons_self _ _)
      cases instruction with
      | je label =>
          have goes := branch label machine.zero known
          rw [block, Instruction.control]
          cases taken : machine.zero <;> rw [taken] at goes <;> exact goes
      | jne label =>
          have goes := branch label (!machine.zero) known
          rw [block, Instruction.control]
          cases taken : machine.zero <;> rw [taken] at goes <;> exact goes
      | ja label =>
          have goes := branch label (!(machine.carry || machine.zero)) known
          rw [block, Instruction.control]
          cases taken : (machine.carry || machine.zero) <;> rw [taken] at goes <;> exact goes
      | jmp label =>
          cases known
          exact ⟨shape, List.mem_singleton.2 rfl, fits⟩
      | jmpTable table index =>
          cases known
          rw [block, Instruction.control]
          cases entry : table[(machine.register index).toNat]? with
          | none => exact trivial
          | some label =>
              have member := List.mem_of_getElem? entry
              exact ⟨shape, List.mem_map.2 ⟨label, member, rfl⟩, fits⟩
      | call label =>
          obtain ⟨back, rfl, known⟩ := Option.bind_eq_some_iff.1 known
          obtain ⟨called, pushed, known⟩ := Option.bind_eq_some_iff.1 known
          cases known
          exact ⟨called, List.mem_singleton.2 rfl, fits.push pushed callable.room rfl⟩
      | callHelper helper =>
          obtain ⟨back, rfl, known⟩ := Option.bind_eq_some_iff.1 known
          obtain ⟨called, pushed, known⟩ := Option.bind_eq_some_iff.1 known
          obtain ⟨rest, dropped, known⟩ := Option.bind_eq_some_iff.1 known
          cases known
          exact ⟨_, List.mem_singleton.2 rfl,
            fits.helper pushed callable.room dropped (callable.cdecl helper _)⟩
      | ret =>
          rw [Shape.exits] at known
          rw [block, Instruction.control]
          split at known
          · next empty =>
            cases known
            have top := fits.top_eq empty callable.inside
            have leaves : program.labelAt machine.top = none := by
              rw [top]
              exact callable.outside
            simp only [Program.follow, leaves]
            exact ⟨shape, machine, List.mem_singleton.2 rfl, empty, fits, rfl⟩
          · next label words split =>
            cases known
            obtain ⟨top, kept⟩ := fits.ret split
            have goes : program.labelAt machine.top = some label := by
              rw [top]
              exact program.labelAt_address label
            simp only [Program.follow, goes]
            exact ⟨_, List.mem_singleton.2 rfl, kept⟩
          · cases known
      | mov | movTo | movzwl | xorl | decw | shl | shr | addl | cmp | pushl | popl | leave =>
          obtain ⟨middle, moved, known⟩ := Option.bind_eq_some_iff.1 known
          exact ih known (fits.transfer moved callable.room)

/-- What a return leaves, by what the typing says of the saved registers. -/
structure Returned (program : Program Label Helper) (typing : Typing Label Helper)
    (origin after : Machine) : Prop where
  returned : after.eip = origin.top
  saved : ∀ name ∈ calleeSaved,
    (typing.final name).Holds program.address origin (after.register name)
  popped : after.register .esp = origin.register .esp + 4
  stack : ∀ place : BitVec 32, (origin.register .esp).toNat ≤ place.toNat →
    after.stack place = origin.stack place

variable [DecidableEq Label] {typing : Typing Label Helper}

/-- An accepted block has exits for each shape at its label, and the typing says as much of them. -/
theorem Typing.exits_of_accepts {code : Code Label Helper} {label : Label}
    (accepted : typing.accepts code label = true) (member : shape ∈ typing.shapes label) :
    ∃ exits,
      shape.exits typing.room typing.arguments (code.next label) (code.block label) = some exits ∧
      (∀ next known, (some next, known) ∈ exits →
        ∃ said ∈ typing.shapes next, known.le said = true) ∧
      (∀ known, (none, known) ∈ exits →
        ∀ name ∈ calleeSaved, Shape.covers (known.get name) (typing.final name) = true) := by
  have checked := List.all_eq_true.1 accepted shape member
  split at checked
  · cases checked
  · next exits known =>
    refine ⟨exits, known, ?_, ?_⟩
    · intro next known inside
      exact List.any_eq_true.1 (List.all_eq_true.1 checked _ inside)
    · intro known inside
      exact List.all_eq_true.1 (List.all_eq_true.1 checked _ inside)

/-- A run through accepted code from a state with one of the shapes at its label ends as the typing
says. -/
theorem returned_of_returns (callable : Callable program typing origin)
    (accepted : ∀ label, typing.accepts program.toCode label = true) {label : Label}
    (member : shape ∈ typing.shapes label) (fits : Fits program.address origin shape machine)
    {after : Machine} (returns : program.Returns label machine after) :
    Returned program typing origin after := by
  obtain ⟨fuel, ran⟩ := returns
  have ended := returnLoop_result
    (fun state : Label × Machine =>
      ∃ shape ∈ typing.shapes state.1, Fits program.address origin shape state.2)
    (fun result => ∀ after, result = some after → Returned program typing origin after)
    ?_ ?_ ⟨shape, member, fits⟩ ran
  · exact ended after rfl
  · rintro ⟨label, machine⟩ result ⟨shape, member, fits⟩ stepped after rfl
    obtain ⟨exits, known, -, final⟩ := Typing.exits_of_accepts (accepted label) member
    have reaches := reaches_exits callable known fits
    rw [Program.step] at stepped
    rw [stepped] at reaches
    obtain ⟨shape, machine, inside, empty, fits, rfl⟩ := reaches
    have pointer := fits.pointer
    rw [empty, List.length_nil, slot_zero] at pointer
    constructor
    · exact fits.top_eq empty callable.inside
    · intro name saved
      have apart : name ≠ .esp := by
        rintro rfl
        exact absurd saved (by decide)
      rw [Machine.register_ret, if_neg apart]
      exact Fits.covers (final shape inside name saved) (fits.saved name)
    · rw [Machine.register_ret, if_pos rfl, pointer]
    · exact fits.caller
  · rintro ⟨label, machine⟩ ⟨next, middle⟩ ⟨shape, member, fits⟩ stepped
    obtain ⟨exits, known, goes, -⟩ := Typing.exits_of_accepts (accepted label) member
    have reaches := reaches_exits callable known fits
    rw [Program.step] at stepped
    rw [stepped] at reaches
    obtain ⟨shape, inside, fits⟩ := reaches
    obtain ⟨said, member, less⟩ := goes next shape inside
    exact ⟨said, member, fits.le less⟩

end

end ComputerSystems.Library.Cdecl
