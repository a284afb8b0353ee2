import ComputerSystems.Library.Cdecl

namespace ComputerSystems.Mp1.EntryPoints

open Library.Cdecl
open Library.Ia32 (Register)

/-- The labels of `mp1.S`, in its order. The places after a call and after the test of the result of
`mp1_malloc` have labels of their own. -/
inductive Label where
  | mp1Poke
  | mp1RtcTasklet
  | traverse
  | oneCasePoked
  | zeroCase
  | loadNext
  | taskEnd
  | mp1Ioctl
  | fail
  | mp1IoctlAdd
  | addAllocated
  | copyFromUser
  | addCopied
  | addPoked
  | clrAdd
  | clrFreed
  | errAdd
  | finAdd
  | mp1IoctlRemove
  | removeSearched
  | remTrav
  | prevFound
  | prevFreed
  | firstElement
  | firstFreed
  | remSuc
  | errRem
  | finRem
  | mp1IoctlFind
  | findSearched
  | findCopied
  | errFind
  | finFind
  | mp1IoctlSync
  | firstSearched
  | secondSearched
  | sOnePoked
  | sZero
  | sSuc
  | errSync
  | finSync
  | mp1Search
  | travel
  | notFound
  | found
  | finSearch
  deriving DecidableEq

/-- The functions in C that the code calls. -/
inductive Helper where
  | mp1Malloc
  | mp1Free
  | mp1CopyFromUser
  | mp1CopyToUser
  deriving DecidableEq

abbrev structSize : BitVec 32 := 16
abbrev onChar : BitVec 32 := 2
abbrev offChar : BitVec 32 := 3
abbrev onLength : BitVec 32 := 4
abbrev offLength : BitVec 32 := 6
abbrev countdown : BitVec 32 := 8
abbrev status : BitVec 32 := 10
abbrev next : BitVec 32 := 12

/-- Where the linker puts the code and the two variables. -/
structure Linked where
  address : Label → BitVec 32
  labelAt : BitVec 32 → Option Label
  labelAt_address : ∀ label, labelAt (address label) = some label
  mp1ListHead : BitVec 32
  vmemBaseAddr : BitVec 32

abbrev Code := List (Instruction Label Helper)

/-- A move of all 32 bits to a register. -/
abbrev movl (source : Operand) (target : Register) : Instruction Label Helper :=
  .mov .long source target

abbrev cmpl (source : Operand) (target : Register) : Instruction Label Helper :=
  .cmp .long source target

/-- The field of a structure in a register. -/
abbrev field (base : Register) (offset : BitVec 32) : Operand := .memory (.indirect base offset)

/-- The stack setup that the functions in C's form share. -/
def setup : Code :=
  [.pushl (.register .ebp),
    movl (.register .esp) .ebp,
    .pushl (.register .esi),
    .pushl (.register .edi),
    .pushl (.register .ebx)]

/-- The stack teardown. -/
def teardown : Code := [.popl .ebx, .popl .edi, .popl .esi, .leave, .ret]

def jumpTable : List Label := [.mp1IoctlAdd, .mp1IoctlRemove, .mp1IoctlFind, .mp1IoctlSync]

/-- A copied field of the second structure of `mp1_ioctl_sync`. -/
def copyField (offset : BitVec 32) : Code :=
  [.mov .word (field .esi offset) .ebx,
    .movTo .word (.register .ebx) (.indirect .edi offset)]

def block (linked : Linked) : Label → Code
  | .mp1Poke =>
      [movl (.memory (.absolute linked.vmemBaseAddr)) .edx,
        .movTo .byte (.register .ecx) (.indexed .edx .eax),
        .ret]
  | .mp1RtcTasklet => setup ++
      [.xorl .ebx .ebx,
        movl (.memory (.absolute linked.mp1ListHead)) .esi]
  | .traverse =>
      [cmpl (.immediate 0) .esi,
        .je .taskEnd,
        .mov .word (field .esi countdown) .ebx,
        .decw .ebx,
        .movTo .word (.register .ebx) (.indirect .esi countdown),
        .cmp .word (.immediate 0) .ebx,
        .jne .loadNext,
        .mov .word (field .esi status) .ebx,
        .cmp .word (.immediate 0) .ebx,
        .je .zeroCase,
        .movTo .word (.immediate 0) (.indirect .esi status),
        .mov .word (field .esi offLength) .ebx,
        .movTo .word (.register .ebx) (.indirect .esi countdown),
        .movzwl (field .esi 0) .eax,
        .shl 1 .eax,
        .xorl .ecx .ecx,
        .mov .byte (field .esi offChar) .ecx,
        .call .mp1Poke]
  | .oneCasePoked => [.jmp .loadNext]
  | .zeroCase =>
      [.movTo .word (.immediate 1) (.indirect .esi status),
        .mov .word (field .esi onLength) .ebx,
        .movTo .word (.register .ebx) (.indirect .esi countdown),
        .movzwl (field .esi 0) .eax,
        .shl 1 .eax,
        .xorl .ecx .ecx,
        .mov .byte (field .esi onChar) .ecx,
        .call .mp1Poke]
  | .loadNext => [movl (field .esi next) .esi, .jmp .traverse]
  | .taskEnd => teardown
  | .mp1Ioctl =>
      [movl (.memory (.indirect .esp 8)) .ecx,
        cmpl (.immediate 3) .ecx,
        .ja .fail,
        .jmpTable jumpTable .ecx]
  | .fail => [movl (.immediate (-1)) .eax, .ret]
  | .mp1IoctlAdd => setup ++
      [movl (.memory (.indirect .ebp 8)) .edi,
        movl (.immediate structSize) .ebx,
        .pushl (.register .ebx),
        .callHelper .mp1Malloc]
  | .addAllocated => [cmpl (.immediate 0) .eax, .je .errAdd]
  | .copyFromUser =>
      [.pushl (.register .edi),
        .pushl (.register .eax),
        .callHelper .mp1CopyFromUser]
  | .addCopied =>
      [.popl .esi,
        .addl 8 .esp,
        cmpl (.immediate 0) .eax,
        .jne .clrAdd,
        .mov .word (field .esi onLength) .ecx,
        .movTo .word (.register .ecx) (.indirect .esi countdown),
        .movTo .word (.immediate 1) (.indirect .esi status),
        movl (.memory (.absolute linked.mp1ListHead)) .ecx,
        .movTo .long (.register .ecx) (.indirect .esi next),
        .movTo .long (.register .esi) (.absolute linked.mp1ListHead),
        .movzwl (field .esi 0) .eax,
        cmpl (.immediate 1999) .eax,
        .ja .clrAdd,
        .shl 1 .eax,
        .xorl .ecx .ecx,
        .mov .byte (field .esi onChar) .ecx,
        .call .mp1Poke]
  | .addPoked => [movl (.immediate 0) .eax, .jmp .finAdd]
  | .clrAdd => [.pushl (.register .esi), .callHelper .mp1Free]
  | .clrFreed => [.popl .esi]
  | .errAdd => [movl (.immediate (-1)) .eax]
  | .finAdd => teardown
  | .mp1IoctlRemove => setup ++
      [movl (.memory (.indirect .ebp 8)) .esi,
        .mov .word (.register .esi) .ecx,
        .call .mp1Search]
  | .removeSearched =>
      [cmpl (.immediate 0) .eax,
        .je .errRem,
        movl (.register .eax) .esi,
        movl (.memory (.absolute linked.mp1ListHead)) .edi,
        cmpl (.register .edi) .esi,
        .je .firstElement]
  | .remTrav =>
      [movl (field .edi next) .ebx,
        cmpl (.register .esi) .ebx,
        .je .prevFound,
        movl (field .edi next) .edi,
        .jmp .remTrav]
  | .prevFound =>
      [movl (field .esi next) .ebx,
        .movTo .long (.register .ebx) (.indirect .edi next),
        .pushl (.register .esi),
        .callHelper .mp1Free]
  | .prevFreed => [.popl .esi, .jmp .remSuc]
  | .firstElement =>
      [movl (field .esi next) .ebx,
        .movTo .long (.register .ebx) (.absolute linked.mp1ListHead),
        .pushl (.register .esi),
        .callHelper .mp1Free]
  | .firstFreed => [.popl .esi]
  | .remSuc => [movl (.immediate 0) .eax, .jmp .finRem]
  | .errRem => [movl (.immediate (-1)) .eax]
  | .finRem => teardown
  | .mp1IoctlFind => setup ++
      [movl (.memory (.indirect .ebp 8)) .esi,
        cmpl (.immediate 0) .esi,
        .je .errFind,
        .mov .word (field .esi 0) .ecx,
        .call .mp1Search]
  | .findSearched =>
      [cmpl (.immediate 0) .eax,
        .je .errFind,
        movl (.register .eax) .edi,
        movl (.immediate structSize) .ebx,
        .pushl (.register .ebx),
        .pushl (.register .edi),
        .pushl (.register .esi),
        .callHelper .mp1CopyToUser]
  | .findCopied =>
      [.addl 12 .esp,
        cmpl (.immediate 0) .eax,
        .jne .errFind,
        movl (.immediate 0) .eax,
        .jmp .finFind]
  | .errFind => [movl (.immediate (-1)) .eax]
  | .finFind => teardown
  | .mp1IoctlSync => setup ++
      [movl (.memory (.indirect .ebp 8)) .esi,
        .xorl .edi .edi,
        .mov .word (.register .esi) .edi,
        .shr 16 .esi,
        .mov .word (.register .esi) .ecx,
        .call .mp1Search]
  | .firstSearched =>
      [movl (.register .eax) .esi,
        .mov .word (.register .edi) .ecx,
        .call .mp1Search]
  | .secondSearched =>
      [movl (.register .eax) .edi,
        cmpl (.immediate 0) .esi,
        .je .errSync,
        cmpl (.immediate 0) .edi,
        .je .errSync,
        .xorl .ebx .ebx] ++
      copyField onLength ++ copyField offLength ++ copyField countdown ++ copyField status ++
      [.movzwl (field .edi 0) .eax,
        .shl 1 .eax,
        .xorl .ecx .ecx,
        .mov .word (field .edi status) .ebx,
        .cmp .word (.immediate 0) .ebx,
        .je .sZero,
        .mov .byte (field .edi onChar) .ecx,
        .call .mp1Poke]
  | .sOnePoked => [.jmp .sSuc]
  | .sZero => [.mov .byte (field .edi offChar) .ecx, .call .mp1Poke]
  | .sSuc => [movl (.immediate 0) .eax, .jmp .finSync]
  | .errSync => [movl (.immediate (-1)) .eax]
  | .finSync => teardown
  | .mp1Search =>
      [.pushl (.register .esi),
        .pushl (.register .ebx),
        .xorl .ebx .ebx,
        movl (.memory (.absolute linked.mp1ListHead)) .esi]
  | .travel =>
      [cmpl (.immediate 0) .esi,
        .je .notFound,
        .mov .word (field .esi 0) .ebx,
        .cmp .word (.register .ecx) .ebx,
        .je .found,
        movl (field .esi next) .esi,
        .jmp .travel]
  | .notFound => [movl (.immediate 0) .eax, .jmp .finSearch]
  | .found => [movl (.register .esi) .eax]
  | .finSearch => [.popl .ebx, .popl .esi, .ret]

/-- The label of the place behind a block. -/
def following : Label → Option Label
  | .mp1Poke => some .mp1RtcTasklet
  | .mp1RtcTasklet => some .traverse
  | .traverse => some .oneCasePoked
  | .oneCasePoked => some .zeroCase
  | .zeroCase => some .loadNext
  | .loadNext => some .taskEnd
  | .taskEnd => some .mp1Ioctl
  | .mp1Ioctl => some .fail
  | .fail => some .mp1IoctlAdd
  | .mp1IoctlAdd => some .addAllocated
  | .addAllocated => some .copyFromUser
  | .copyFromUser => some .addCopied
  | .addCopied => some .addPoked
  | .addPoked => some .clrAdd
  | .clrAdd => some .clrFreed
  | .clrFreed => some .errAdd
  | .errAdd => some .finAdd
  | .finAdd => some .mp1IoctlRemove
  | .mp1IoctlRemove => some .removeSearched
  | .removeSearched => some .remTrav
  | .remTrav => some .prevFound
  | .prevFound => some .prevFreed
  | .prevFreed => some .firstElement
  | .firstElement => some .firstFreed
  | .firstFreed => some .remSuc
  | .remSuc => some .errRem
  | .errRem => some .finRem
  | .finRem => some .mp1IoctlFind
  | .mp1IoctlFind => some .findSearched
  | .findSearched => some .findCopied
  | .findCopied => some .errFind
  | .errFind => some .finFind
  | .finFind => some .mp1IoctlSync
  | .mp1IoctlSync => some .firstSearched
  | .firstSearched => some .secondSearched
  | .secondSearched => some .sOnePoked
  | .sOnePoked => some .sZero
  | .sZero => some .sSuc
  | .sSuc => some .errSync
  | .errSync => some .finSync
  | .finSync => some .mp1Search
  | .mp1Search => some .travel
  | .travel => some .notFound
  | .notFound => some .found
  | .found => some .finSearch
  | .finSearch => none

def mp1 (linked : Linked) (helper : Helper → Machine → Machine) : Program Label Helper where
  block := block linked
  next := following
  address := linked.address
  labelAt := linked.labelAt
  labelAt_address := linked.labelAt_address
  helper := helper

/-- The number of words that the functions in C take from the stack. -/
def parameters : Helper → Nat
  | .mp1Malloc => 1
  | .mp1Free => 1
  | .mp1CopyFromUser => 3
  | .mp1CopyToUser => 3

end ComputerSystems.Mp1.EntryPoints
