import ComputerSystems.Construction.Tux.Driver
import ComputerSystems.Library.Ia32

namespace ComputerSystems.Tux

open Library.Ia32

/-- `copy_to_user` with accessible memory of the user. -/
def copyToUser (target : BitVec 32) : List (BitVec 8) → Memory → Memory
  | [], user => user
  | byte :: rest, user => copyToUser (target + 1) rest (Function.update user target byte)

/-- The bytes of the result that `TUX_BUTTONS` copies. -/
abbrev buttonsSize : Nat := 1

/-- An ioctl with its effect on the memory of the user. Its argument is the address for
`TUX_BUTTONS`. -/
def ioctlUser (arg : BitVec 32) (ioctl : Ioctl) (driver : Driver) (user : Memory) :
    Int × Driver × Memory :=
  let outcome := tuxctlIoctl ioctl driver
  (outcome.1, outcome.2.2,
    match outcome.2.1 with
    | none => user
    | some buf => copyToUser arg ((List.range buttonsSize).map (byteOf buf)) user)

end ComputerSystems.Tux
