import ComputerSystems.Construction.Kernel.Syscalls

namespace ComputerSystems.Kernel
open ComputerSystems.Library

/-- A process that calls the driver from its own kernel stack. -/
structure Caller where
  pid : Nat
  esp : Nat
  slot : 1 ≤ pid ∧ pid ≤ numMaxProcesses
  inStack : getCurrentProcessPCB esp = getProcessPCB pid

/-- The blocks by address, and the processes that are inside the wait loop of `rtc_read`. -/
structure RtcSystem where
  pcb : Nat → Pcb
  waits : Nat → Bool

/-- The first part of `rtc_read` sets the count of the wait loop. -/
def rtcStart (fd : Fin 8) (pcb : Pcb) : Option Pcb :=
  (rtcPeriod (pcb.fileArray fd)).map fun period =>
    { pcb with rtcCount := (period % 2 ^ 32).toNat }

/-- The interrupt handler visits the block of every process slot. -/
def rtcInt (pcb : Nat → Pcb) : Nat → Pcb :=
  forLoop (fun index blocks => Function.update blocks (getProcessPCB (index + 1))
    (rtcTick (blocks (getProcessPCB (index + 1))))) 0 numMaxProcesses pcb

/-- An interrupt, a call of one process on one of its descriptors, or the return of a read. -/
inductive RtcEvent where
  | rtcInt
  | rtcOpen (caller : Caller) (fd : Fin 8)
  | rtcWrite (caller : Caller) (fd : Fin 8) (buf : Option (Nat → UInt8)) (nbytes : Int)
  | rtcRead (caller : Caller) (fd : Fin 8)
  | rtcReturn (caller : Caller)

/-- A call on the block of the caller, which is not inside the wait loop. -/
def RtcSystem.call (system : RtcSystem) (caller : Caller) (change : Pcb → Pcb) :
    Except Stop RtcSystem :=
  if system.waits caller.pid then .error .blocked
  else
    let address := getCurrentProcessPCB caller.esp
    .ok { system with pcb := Function.update system.pcb address (change (system.pcb address)) }

/-- The test of the wait loop ends a read when the count is zero. -/
def rtcStep (system : RtcSystem) : RtcEvent → Except Stop RtcSystem
  | .rtcInt => .ok { system with pcb := Kernel.rtcInt system.pcb }
  | .rtcOpen caller fd => system.call caller fun pcb =>
      { pcb with fileArray := Kernel.rtcOpen fd pcb.fileArray }
  | .rtcWrite caller fd buf nbytes => system.call caller fun pcb =>
      { pcb with fileArray := (Kernel.rtcWrite fd buf nbytes pcb.fileArray).2 }
  | .rtcRead caller fd =>
      match rtcStart fd (system.pcb (getCurrentProcessPCB caller.esp)) with
      | none => .error .divideError
      | some started => (system.call caller fun _ => started).map fun begun =>
          { begun with waits := Function.update begun.waits caller.pid true }
  | .rtcReturn caller =>
      if system.waits caller.pid then
        if (system.pcb (getCurrentProcessPCB caller.esp)).rtcCount = 0 then
          .ok { system with waits := Function.update system.waits caller.pid false }
        else .error .waiting
      else .error .blocked

end ComputerSystems.Kernel
