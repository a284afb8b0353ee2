import ComputerSystems.Library.Ia32

namespace ComputerSystems.Kernel
open ComputerSystems.Library.Ia32

/-- The labels of `memset` and `memcpy`. -/
inductive FillLabel where
  | top
  | aligned
  | bottom
  | done

/-- Both routines go to a word boundary in bytes, then on in words, and end in bytes. -/
def fillRoutine (bytewise : List (Instruction FillLabel)) (words : Instruction FillLabel) :
    Routine FillLabel where
  code
    | .top =>
        [.testl (.register .ecx) .ecx, .jz .done, .testl (.immediate 0x3) .edi, .jz .aligned] ++
          bytewise ++ [.subl (.immediate 1) .ecx, .jmp .top]
    | .aligned =>
        [.movwFrom .ds .edx, .movwTo .edx .es, .movl (.register .ecx) .edx, .shrl 2 .ecx,
          .andl (.immediate 0x3) .edx, .cld, words]
    | .bottom =>
        [.testl (.register .edx) .edx, .jz .done] ++ bytewise ++
          [.subl (.immediate 1) .edx, .jmp .bottom]
    | .done => []
  next
    | .top => some .aligned
    | .aligned => some .bottom
    | .bottom => some .done
    | .done => none

def memset : Routine FillLabel :=
  fillRoutine [.movbStore .edi, .addl (.immediate 1) .edi] .repStosl

/-- The byte goes into all four bytes of the register. -/
def memsetStart (s c n : BitVec 32) (processor : Processor) : Processor :=
  let byte := c &&& 0xFF
  ((processor.set .eax (byte <<< 24 ||| byte <<< 16 ||| byte <<< 8 ||| byte)).set .edi s).set .ecx n

def memcpy : Routine FillLabel :=
  fillRoutine [.movbLoad .esi, .movbStore .edi, .addl (.immediate 1) .edi,
    .addl (.immediate 1) .esi] .repMovsl

inductive MoveLabel where
  | start
  | go

def memmove : Routine MoveLabel where
  code
    | .start =>
        [.movwFrom .ds .edx, .movwTo .edx .es, .cld, .cmpl (.register .edi) .esi, .jae .go,
          .leal (-1) .esi .ecx .esi, .leal (-1) .edi .ecx .edi, .std]
    | .go => [.repMovsb]
  next
    | .start => some .go
    | .go => none

/-- The operands of `memcpy` and `memmove`. -/
def copyStart (dest src n : BitVec 32) (processor : Processor) : Processor :=
  ((processor.set .esi src).set .edi dest).set .ecx n

end ComputerSystems.Kernel
