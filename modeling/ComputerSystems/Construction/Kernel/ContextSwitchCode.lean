import ComputerSystems.Library.Ia32

namespace ComputerSystems.Kernel
open ComputerSystems.Library.Ia32

abbrev kernelCs : BitVec 32 := 0x0010
abbrev kernelDs : BitVec 32 := 0x0018
abbrev userCs : BitVec 32 := 0x0023
abbrev userDs : BitVec 32 := 0x002B

/-- The two switches push different selectors. -/
def switchCode (dataSegment codeSegment : BitVec 32) : List (Instruction Empty) :=
  [.cli,
    .movl (.memory .esp 4) .ecx,
    .movl (.memory .esp 8) .edx,
    .movl (.memory .esp 12) .ebp,
    .pushl (.immediate dataSegment),
    .pushl (.register .edx),
    .pushfl,
    .popl .eax,
    .orl (.immediate 0x200) .eax,
    .pushl (.register .eax),
    .pushl (.immediate codeSegment),
    .pushl (.register .ecx),
    .iret]

def contextSwitch : List (Instruction Empty) := switchCode userDs userCs

def kernelContextSwitch : List (Instruction Empty) := switchCode kernelDs kernelCs

end ComputerSystems.Kernel
