import Mathlib.Tactic

namespace ComputerSystems.Kernel

abbrev master8259Port : Nat := 0x20
abbrev slave8259Port : Nat := 0xA0
abbrev numberIrqs : BitVec 32 := 0x0F

/-- The value of `ICW3_SLAVE` is the line of the master that the slave is on. -/
abbrev icw3Slave : Nat := 0x02

/-- The interrupt masks, and the bytes written to the ports with the last one first. -/
structure Pic where
  masterInterruptMask : BitVec 8
  slaveInterruptMask : BitVec 8
  written : List (Nat × BitVec 8)

namespace Pic

def outb (data : BitVec 8) (port : Nat) (pic : Pic) : Pic :=
  { pic with written := (port, data) :: pic.written }

def writeMaster (pic : Pic) : Pic := pic.outb pic.masterInterruptMask (master8259Port + 1)

def writeSlave (pic : Pic) : Pic := pic.outb pic.slaveInterruptMask (slave8259Port + 1)

end Pic

/-- The operands of the bit operations are 32 bits wide. -/
def unmaskLine (line : Nat) (mask : BitVec 8) : BitVec 8 :=
  (mask.setWidth 32 &&& ~~~(1#32 <<< line)).setWidth 8

def maskLine (line : Nat) (mask : BitVec 8) : BitVec 8 :=
  (mask.setWidth 32 ||| 1#32 <<< line).setWidth 8

def enableIrq (irqNum : BitVec 32) (pic : Pic) : Pic :=
  if irqNum > numberIrqs then pic
  else if irqNum < 8 then
    Pic.writeMaster
      { pic with masterInterruptMask := unmaskLine irqNum.toNat pic.masterInterruptMask }
  else
    let unmasked := Pic.writeSlave
      { pic with slaveInterruptMask := unmaskLine (irqNum - 8).toNat pic.slaveInterruptMask }
    Pic.writeMaster
      { unmasked with masterInterruptMask := unmaskLine icw3Slave unmasked.masterInterruptMask }

def disableIrq (irqNum : BitVec 32) (pic : Pic) : Pic :=
  if irqNum > numberIrqs then pic
  else if irqNum < 8 then
    Pic.writeMaster
      { pic with masterInterruptMask := maskLine irqNum.toNat pic.masterInterruptMask }
  else
    let masked := Pic.writeSlave
      { pic with slaveInterruptMask := maskLine (irqNum - 8).toNat pic.slaveInterruptMask }
    if masked.slaveInterruptMask = 0xFF then
      Pic.writeMaster
        { masked with masterInterruptMask := maskLine icw3Slave masked.masterInterruptMask }
    else masked

/-- A call of `enable_irq` or `disable_irq`. -/
inductive IrqCall where
  | enable (irqNum : BitVec 32)
  | disable (irqNum : BitVec 32)
  deriving DecidableEq

namespace IrqCall

def irqNum : IrqCall → BitVec 32
  | .enable irqNum => irqNum
  | .disable irqNum => irqNum

def run (pic : Pic) : IrqCall → Pic
  | .enable irqNum => enableIrq irqNum pic
  | .disable irqNum => disableIrq irqNum pic

end IrqCall

end ComputerSystems.Kernel
