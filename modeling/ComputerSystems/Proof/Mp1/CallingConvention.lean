import ComputerSystems.Construction.Mp1.EntryPoints
import ComputerSystems.Library.StackTyping

namespace ComputerSystems.Mp1.EntryPoints

open Library.Cdecl
open Library.Ia32 (Register load32)

/-- Nothing is on the stack, and the registers are those of the caller. -/
def entered : Shape Label := ⟨.entry .ebx, .entry .esi, .entry .edi, .entry .ebp, []⟩

/-- The stack setup is done, and some more words are on the stack. -/
def framed (words : List (Value Label)) : Shape Label :=
  ⟨.any, .any, .any, .frame 1, words ++ [.entry .ebx, .entry .edi, .entry .esi, .entry .ebp]⟩

/-- The places that `mp1_poke` returns to. -/
def pokeReturns : List Label := [.oneCasePoked, .loadNext, .addPoked, .sOnePoked, .sSuc]

/-- The places that `mp1_search` returns to. -/
def searchReturns : List Label := [.removeSearched, .findSearched, .firstSearched, .secondSearched]

/-- The shapes at each label of a run in which `mp1_malloc` does not fail. The labels before its
result is known have none. -/
def shapes : Label → List (Shape Label)
  | .mp1Poke => pokeReturns.map fun label => framed [.code label]
  | .mp1RtcTasklet | .fail | .mp1IoctlRemove | .mp1IoctlFind | .mp1IoctlSync => [entered]
  | .mp1Ioctl | .mp1IoctlAdd | .addAllocated => []
  | .copyFromUser | .clrFreed | .prevFreed | .firstFreed => [framed [.any]]
  | .addCopied | .findCopied => [framed [.any, .any, .any]]
  | .mp1Search => searchReturns.map fun label => framed [.code label]
  | .travel | .notFound | .found | .finSearch =>
      searchReturns.map fun label => framed [.any, .any, .code label]
  | _ => [framed []]

/-- Every register is restored. -/
def balanced : Typing Label Helper := ⟨8, parameters, shapes, .entry⟩

theorem balanced_accepts (linked : Linked) (helper : Helper → Machine → Machine) (label : Label) :
    balanced.accepts (mp1 linked helper).toCode label = true := by
  cases label <;> rfl

/-- The argument of `mp1_malloc` is still on the stack. Its value stands under the name of a
register that no function has to keep. -/
def unbalancedShapes : Label → List (Shape Label)
  | .errAdd | .finAdd => [framed [.entry .eax]]
  | _ => []

def shifted : Register → Value Label
  | .ebx => .entry .eax
  | .edi => .entry .ebx
  | .esi => .entry .edi
  | name => .entry name

def unbalanced : Typing Label Helper := ⟨8, parameters, unbalancedShapes, shifted⟩

theorem unbalanced_accepts (linked : Linked) (helper : Helper → Machine → Machine)
    (label : Label) : unbalanced.accepts (mp1 linked helper).toCode label = true := by
  cases label <;> rfl

/-- A C function calls the code: the functions that it calls in turn keep the convention, the stack
has room for eight words, and the return address is outside the code. -/
structure Called (linked : Linked) (helper : Helper → Machine → Machine) (entry : Machine) :
    Prop where
  cdecl : ∀ name machine, Keeps (parameters name) machine (helper name machine)
  room : 32 ≤ (entry.register .esp).toNat
  inside : (entry.register .esp).toNat + 4 ≤ 2 ^ 32
  outside : linked.labelAt entry.top = none

/-- The second argument of `mp1_ioctl`. -/
def command (entry : Machine) : BitVec 32 := entry.load .long (.indirect .esp 8)

def target (command : BitVec 32) : Label := (jumpTable[command.toNat]?).getD .fail

/-- The state after the dispatch of `mp1_ioctl`. -/
def dispatched (entry : Machine) : Machine :=
  (entry.set .ecx (command entry)).setFlags (command entry < 3) (command entry == 3)

/-- The state in which `mp1_ioctl_add` calls `mp1_malloc`. -/
def allocating (linked : Linked) (entry : Machine) : Machine :=
  (Library.Cdecl.block (block linked .mp1IoctlAdd) (dispatched entry)).2.push
    (linked.address .addAllocated)

/-- The state in which `mp1_malloc` returns. -/
def allocated (linked : Linked) (helper : Helper → Machine → Machine) (entry : Machine) : Machine :=
  helper .mp1Malloc (allocating linked entry)

section
variable {linked : Linked} {helper : Helper → Machine → Machine} {entry machine after : Machine}

theorem fits_entered (linked : Linked) (entry : Machine) :
    Fits linked.address entry entered entry := by
  constructor
  · exact (slot_zero entry).symm
  · exact Nat.zero_le _
  · intro name
    cases name <;> first | rfl | exact trivial
  · exact trivial
  · exact fun _ _ => rfl

theorem fits_dispatched (linked : Linked) (entry : Machine) :
    Fits linked.address entry entered (dispatched entry) := by
  have known : entered.set (.any : Value Label) .ecx = some entered := rfl
  exact ((fits_entered linked entry).set known trivial).congr rfl rfl

/-- An invalid command goes to the failure, a valid one to its function. -/
theorem step_mp1Ioctl :
    (mp1 linked helper).step (.mp1Ioctl, entry) =
      .inr (target (command entry), dispatched entry) := by
  have index : (dispatched entry).register .ecx = command entry := by
    show (entry.set .ecx (command entry)).register .ecx = command entry
    rw [Machine.register_set, if_pos rfl]
  have loaded : Library.Cdecl.block (block linked .mp1Ioctl) entry =
      Library.Cdecl.block [.ja .fail, .jmpTable jumpTable .ecx] (dispatched entry) := rfl
  have step : (mp1 linked helper).step (.mp1Ioctl, entry) = (mp1 linked helper).follow (some .fail)
      (Library.Cdecl.block [.ja .fail, .jmpTable jumpTable .ecx] (dispatched entry)) := by
    rw [← loaded]
    rfl
  have flags : (dispatched entry).carry || (dispatched entry).zero ↔
      (command entry).toNat < jumpTable.length := by
    have size : jumpTable.length = 4 := rfl
    simp only [dispatched, Machine.setFlags, Bool.or_eq_true, decide_eq_true_eq, beq_iff_eq, size]
    generalize command entry = command
    bv_omega
  rw [step, target]
  by_cases valid : (command entry).toNat < jumpTable.length
  · have passes : (Instruction.ja Label.fail : Instruction Label Helper).control
        (dispatched entry) = .next := if_pos (flags.2 valid)
    have jumps : (Instruction.jmpTable jumpTable .ecx : Instruction Label Helper).control
        (dispatched entry) = .jump (jumpTable[(command entry).toNat]) := by
      simp only [Instruction.control, index, List.getElem?_eq_getElem valid]
    rw [block_next passes, Instruction.effect, block_jump jumps, List.getElem?_eq_getElem valid]
    rfl
  · have fails : (Instruction.ja Label.fail : Instruction Label Helper).control
        (dispatched entry) = .jump .fail := if_neg (valid ∘ flags.1)
    rw [block_jump fails, List.getElem?_eq_none (Nat.le_of_not_lt valid)]
    rfl

/-- The other commands start with the registers and the stack of the caller. -/
theorem entered_mem {command : BitVec 32} (other : command ≠ 0) :
    entered ∈ shapes (target command) := by
  have nonzero : command.toNat ≠ 0 := fun zero => other (BitVec.eq_of_toNat_eq zero)
  rw [target]
  generalize command.toNat = index at nonzero
  match index with
  | 0 => exact absurd rfl nonzero
  | 1 => exact List.mem_singleton.2 rfl
  | 2 => exact List.mem_singleton.2 rfl
  | 3 => exact List.mem_singleton.2 rfl
  | index + 4 => exact List.mem_singleton.2 rfl

theorem step_mp1IoctlAdd :
    (mp1 linked helper).step (.mp1IoctlAdd, dispatched entry) =
      .inr (.addAllocated, allocated linked helper entry) := rfl

theorem step_addAllocated :
    (mp1 linked helper).step (.addAllocated, machine) =
      .inr (if machine.register .eax = 0 then .errAdd else .copyFromUser,
        machine.setFlags (machine.register .eax < 0) (machine.register .eax == 0)) := by
  have step : (mp1 linked helper).step (.addAllocated, machine) =
      (mp1 linked helper).follow (some .copyFromUser) (Library.Cdecl.block [.je .errAdd]
        (machine.setFlags (machine.register .eax < 0) (machine.register .eax == 0))) := rfl
  rw [step]
  generalize tested : machine.setFlags (machine.register .eax < 0)
    (machine.register .eax == 0) = after
  have flag : after.zero = (machine.register .eax == 0) := by
    rw [← tested]
    rfl
  by_cases null : machine.register .eax = 0
  · have jumps : (Instruction.je Label.errAdd : Instruction Label Helper).control after =
        .jump .errAdd := if_pos (flag.trans (beq_iff_eq.2 null))
    rw [block_jump jumps, if_pos null]
    rfl
  · have passes : (Instruction.je Label.errAdd : Instruction Label Helper).control after =
        .next := if_neg fun taken => null (beq_iff_eq.1 (flag.symm.trans taken))
    rw [block_next passes, if_neg null]
    rfl

/-- A run of the code in which all pushes are popped keeps the convention. -/
theorem keeps_of_balanced {label : Label} {shape : Shape Label}
    (called : Called linked helper entry) (member : shape ∈ shapes label)
    (fits : Fits linked.address entry shape machine)
    (returns : (mp1 linked helper).Returns label machine after) : Keeps 0 entry after := by
  have callable : Callable (mp1 linked helper) balanced entry :=
    ⟨called.cdecl, called.room, called.inside, called.outside⟩
  have ended := returned_of_returns callable (balanced_accepts linked helper) member fits returns
  exact ⟨ended.returned, ended.saved, ended.popped, fun place above => ended.stack place (by omega)⟩

/-- `mp1_malloc` returns with the frame of `mp1_ioctl_add` and its own argument on the stack. -/
theorem fits_allocated (called : Called linked helper entry) :
    Fits linked.address entry (framed [.any]) (allocated linked helper entry) := by
  have callable : Callable (mp1 linked helper) balanced entry :=
    ⟨called.cdecl, called.room, called.inside, called.outside⟩
  have known : entered.exits balanced.room balanced.arguments (following .mp1IoctlAdd)
      (block linked .mp1IoctlAdd) =
        some [(some .addAllocated, { framed [.any] with esi := .entry .esi })] := rfl
  obtain ⟨shape, member, fits⟩ := reaches_exits callable known (fits_dispatched linked entry)
  cases List.mem_singleton.1 member
  exact fits.le rfl

/-- When `mp1_malloc` fails, the registers are popped one word too early. -/
theorem keeps_of_unbalanced (called : Called linked helper entry)
    (fits : Fits linked.address entry (framed [.any]) machine)
    (returns : (mp1 linked helper).Returns .errAdd machine after) :
    Keeps 0 entry after ↔ machine.top = entry.register .ebx ∧
      entry.register .ebx = entry.register .edi ∧ entry.register .edi = entry.register .esi := by
  -- The origin is the entry with the argument's word in a register that is not saved.
  let origin := entry.set .eax machine.top
  have callable : Callable (mp1 linked helper) unbalanced origin :=
    ⟨called.cdecl, called.room, called.inside, called.outside⟩
  have stored : load32 machine.stack (slot entry 5) = machine.top := by
    rw [Machine.top, fits.pointer]
    rfl
  have renamed : Fits linked.address origin (framed [.entry .eax]) machine := by
    obtain ⟨-, ebx, edi, esi, ebp, -⟩ := fits.words
    constructor
    · exact fits.pointer
    · exact fits.room
    · intro name
      cases name <;> first | exact fits.saved .ebp | exact trivial
    · exact ⟨stored, ebx, edi, esi, ebp, trivial⟩
    · exact fits.caller
  have ended := returned_of_returns callable (unbalanced_accepts linked helper)
    (List.mem_singleton.2 rfl) renamed returns
  have ebx : after.register .ebx = machine.top := ended.saved .ebx (by decide)
  have esi : after.register .esi = entry.register .edi := ended.saved .esi (by decide)
  have edi : after.register .edi = entry.register .ebx := ended.saved .edi (by decide)
  have ebp : after.register .ebp = entry.register .ebp := ended.saved .ebp (by decide)
  constructor
  · intro keeps
    refine ⟨?_, ?_, ?_⟩
    · rw [← ebx, keeps.saved .ebx (by decide)]
    · rw [← edi, keeps.saved .edi (by decide)]
    · rw [← esi, keeps.saved .esi (by decide)]
  · rintro ⟨first, second, third⟩
    refine ⟨ended.returned, ?_, ended.popped, fun place above => ended.stack place ?_⟩
    · intro name saved
      simp only [calleeSaved, List.mem_cons, List.not_mem_nil, or_false] at saved
      rcases saved with rfl | rfl | rfl | rfl
      · rw [ebx, first]
      · rw [esi, third]
      · rw [edi, second]
      · exact ebp
    · have same : origin.register .esp = entry.register .esp := rfl
      rw [same]
      omega

/-- `mp1_ioctl` gets a null pointer from `mp1_malloc`. -/
def Leaks (linked : Linked) (helper : Helper → Machine → Machine) (entry : Machine) : Prop :=
  command entry = 0 ∧ (allocated linked helper entry).register .eax = 0

/-- The words that are popped one too early happen to be those of the caller. -/
def Coincides (linked : Linked) (helper : Helper → Machine → Machine) (entry : Machine) : Prop :=
  (allocated linked helper entry).top = entry.register .ebx ∧
    entry.register .ebx = entry.register .edi ∧ entry.register .edi = entry.register .esi

/-- The tasklet always keeps the calling convention, and `mp1_ioctl` does unless the allocation of
an added structure fails. -/
theorem entryPoints_keep_iff (called : Called linked helper entry) :
    (∀ after, (mp1 linked helper).Returns .mp1RtcTasklet entry after → Keeps 0 entry after) ∧
      ∀ after, (mp1 linked helper).Returns .mp1Ioctl entry after →
        (Keeps 0 entry after ↔
          ¬(Leaks linked helper entry ∧ ¬Coincides linked helper entry)) := by
  constructor
  · intro after returns
    exact keeps_of_balanced called (List.mem_singleton.2 rfl) (fits_entered linked entry) returns
  · intro after returns
    have goes := Program.returns_of_step step_mp1Ioctl returns
    by_cases adds : command entry = 0
    · rw [adds] at goes
      have stored := Program.returns_of_step step_addAllocated
        (Program.returns_of_step step_mp1IoctlAdd goes)
      have tested : Fits linked.address entry (framed [.any])
          ((allocated linked helper entry).setFlags
            ((allocated linked helper entry).register .eax < 0)
            ((allocated linked helper entry).register .eax == 0)) :=
        (fits_allocated called).congr rfl rfl
      by_cases null : (allocated linked helper entry).register .eax = 0
      · rw [if_pos null] at stored
        rw [keeps_of_unbalanced called tested stored, not_and, not_not]
        exact ⟨fun coincides _ => coincides, fun holds => holds ⟨adds, null⟩⟩
      · rw [if_neg null] at stored
        exact iff_of_true (keeps_of_balanced called (List.mem_singleton.2 rfl) tested stored)
          fun leaks => null leaks.1.2
    · exact iff_of_true
        (keeps_of_balanced called (entered_mem adds) (fits_dispatched linked entry) goes)
        fun leaks => adds leaks.1.1

/-- After a failed allocation the call returns all the same. -/
theorem returns_of_unbalanced (called : Called linked helper entry)
    (fits : Fits linked.address entry (framed [.any]) machine) :
    ∃ after, (mp1 linked helper).Returns .errAdd machine after := by
  have callable : Callable (mp1 linked helper) balanced entry :=
    ⟨called.cdecl, called.room, called.inside, called.outside⟩
  have fails : (framed [.any]).exits balanced.room balanced.arguments (following .errAdd)
      (block linked .errAdd) = some [(some .finAdd, framed [.any])] := rfl
  obtain ⟨shape, member, fits⟩ := reaches_exits callable fails fits
  cases List.mem_singleton.1 member
  have ends : (framed [.any]).exits balanced.room balanced.arguments (following .finAdd)
      (block linked .finAdd) =
        some [(none, ⟨.any, .entry .edi, .entry .ebx, .entry .ebp, []⟩)] := rfl
  have reaches := reaches_exits callable ends fits
  have errs : (mp1 linked helper).step (.errAdd, machine) =
      .inr (.finAdd, machine.set .eax (-1)) := rfl
  have leaves : ∃ popped, (mp1 linked helper).step (.finAdd, machine.set .eax (-1)) =
      (mp1 linked helper).follow (following .finAdd) (.ret, popped) := ⟨_, rfl⟩
  obtain ⟨popped, leaves⟩ := leaves
  change Reaches _ _ _ ((mp1 linked helper).step (.finAdd, machine.set .eax (-1))) at reaches
  rw [leaves, Program.follow] at reaches
  rw [Program.follow] at leaves
  cases goes : (mp1 linked helper).labelAt popped.top with
  | some label =>
      rw [goes] at reaches
      obtain ⟨shape, member, -⟩ := reaches
      cases List.mem_singleton.1 member
  | none =>
      rw [goes] at leaves
      refine ⟨popped.ret, 2, ?_⟩
      rw [Library.returnLoop, errs]
      simp only
      rw [Library.returnLoop, leaves]

/-- A failed allocation gives back the wrong registers, unless they happen to be the same. -/
theorem leaks_returns (called : Called linked helper entry) (leaks : Leaks linked helper entry) :
    ∃ after, (mp1 linked helper).Returns .mp1Ioctl entry after ∧
      (Keeps 0 entry after ↔ Coincides linked helper entry) := by
  have tested : Fits linked.address entry (framed [.any])
      ((allocated linked helper entry).setFlags
        ((allocated linked helper entry).register .eax < 0)
        ((allocated linked helper entry).register .eax == 0)) :=
    (fits_allocated called).congr rfl rfl
  obtain ⟨after, fails⟩ := returns_of_unbalanced called tested
  have ended := keeps_of_unbalanced called tested fails
  refine ⟨after, ?_, ended⟩
  apply Program.returns_step step_mp1Ioctl
  rw [leaks.1]
  apply Program.returns_step step_mp1IoctlAdd
  apply Program.returns_step step_addAllocated
  rwa [if_pos leaks.2]

end

/-- The code from address zero on, a byte for each label. -/
def sampleLinked : Linked where
  address := fun label => BitVec.ofNat 32 label.ctorIdx
  labelAt := fun place => if place.toNat < 46 then some (Label.ofNat place.toNat) else none
  labelAt_address := by
    intro label
    cases label <;> rfl
  mp1ListHead := 0x2000
  vmemBaseAddr := 0x2004

/-- Functions that return zero. -/
def sampleHelper (_ : Helper) (machine : Machine) : Machine := machine.ret.set .eax 0

/-- A call with command zero, a return address behind the code, and different values in the
registers. -/
def sampleEntry : Machine where
  register := fun name => BitVec.ofNat 32 (0x100 + name.ctorIdx)
  carry := false
  zero := false
  eip := 0
  stack := fun place => if place = 0x104 then 255 else 0
  data := fun _ => 0

theorem sample_called : Called sampleLinked sampleHelper sampleEntry := by
  constructor
  · intro name machine
    constructor
    · rfl
    · intro other saved
      have apart : other ≠ .eax ∧ other ≠ .esp := by
        constructor <;> rintro rfl <;> exact absurd saved (by decide)
      rw [sampleHelper, Machine.register_set, if_neg apart.1, Machine.register_ret,
        if_neg apart.2]
    · rw [sampleHelper, Machine.register_set, if_neg (by decide), Machine.register_ret, if_pos rfl]
    · exact fun _ _ => rfl
  · decide
  · decide
  · decide

theorem sample_leaks : Leaks sampleLinked sampleHelper sampleEntry := ⟨by decide, rfl⟩

theorem entryPoints_keep_iff_sample :
    (∀ after, (mp1 sampleLinked sampleHelper).Returns .mp1RtcTasklet sampleEntry after →
        Keeps 0 sampleEntry after) ∧
      ∀ after, (mp1 sampleLinked sampleHelper).Returns .mp1Ioctl sampleEntry after →
        (Keeps 0 sampleEntry after ↔ ¬(Leaks sampleLinked sampleHelper sampleEntry ∧
          ¬Coincides sampleLinked sampleHelper sampleEntry)) :=
  entryPoints_keep_iff sample_called

/-- The call returns, and the caller's registers are not restored. -/
theorem ioctlAdd_unbalanced :
    Called sampleLinked sampleHelper sampleEntry ∧
      ∃ after, (mp1 sampleLinked sampleHelper).Returns .mp1Ioctl sampleEntry after ∧
        ¬Keeps 0 sampleEntry after := by
  obtain ⟨after, returns, keeps⟩ := leaks_returns sample_called sample_leaks
  refine ⟨sample_called, after, returns, fun kept => ?_⟩
  exact absurd (keeps.1 kept).2.1 (by decide)

end ComputerSystems.Mp1.EntryPoints
