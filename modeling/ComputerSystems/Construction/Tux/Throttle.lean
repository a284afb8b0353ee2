import ComputerSystems.Construction.Tux.Driver
import ComputerSystems.Library.Calls

namespace ComputerSystems.Tux
open Library

/-- The number of LEDs that a mask selects. -/
def setBits (mask : UInt8) : Nat := ((List.range 8).filter mask.toNat.testBit).length

/-- Whether the bytes are one of the commands that the driver may send. A mask is followed by one
byte for each of its bits. -/
def isCommand : List UInt8 → Bool
  | [] => false
  | [opcode] => opcode == mtcpBiocOn || opcode == mtcpLedUsr
  | opcode :: mask :: data => opcode == mtcpLedSet && data.length == setBits mask

/-- The code of the driver that sends a command. -/
inductive Source where
  | tuxInit
  | tuxSetLed
  | reset
  deriving DecidableEq

/-- A complete command with the number of bytes up to its end. -/
structure Command where
  source : Source
  opcode : UInt8
  stop : Nat
  deriving DecidableEq

def Command.isLedUpdate (command : Command) : Bool :=
  command.source == .tuxSetLed && command.opcode == mtcpLedSet

/-- The controller answers each complete command once. It skips a byte that starts no command. -/
structure Device where
  unfinished : List UInt8
  source : Source
  received : Nat
  pending : List Command

namespace Device

def init : Device := ⟨[], .tuxInit, 0, []⟩

def receiveByte (source : Source) (device : Device) (byte : UInt8) : Device :=
  let word := device.unfinished ++ [byte]
  let source := if device.unfinished = [] then source else device.source
  let received := device.received + 1
  if isCommand word then
    ⟨[], source, received, device.pending ++ [⟨source, word.headD 0, received⟩]⟩
  else if word.headD 0 = mtcpLedSet then ⟨word, source, received, device.pending⟩
  else ⟨[], source, received, device.pending⟩

def receive (source : Source) (bytes : List UInt8) (device : Device) : Device :=
  bytes.foldl (receiveByte source) device

end Device

/-- The steps that a call of `tuxctl_ioctl` still has to make. -/
inductive Call where
  | putBioc
  | putUsr
  | testSpam (arg : BitVec 32)
  | putBuffer
  | setSpam
  deriving DecidableEq

/-- The driver and the controller with the calls of `tuxctl_ioctl` in progress. -/
structure Throttle where
  driver : Driver
  device : Device
  calls : List Call

namespace Throttle

/-- No call is in progress when the line discipline is opened. -/
def init (slots : Nat → UInt8) : Throttle := ⟨Driver.init (openBuffer slots), Device.init, []⟩

/-- The controller receives the bytes that enter the transmit buffer in order. -/
def send (source : Source) (next : Driver) (state : Throttle) : Throttle :=
  { state with
    driver := next
    device := state.device.receive source (next.entered.drop state.driver.entered.length) }

/-- One step of a call, and the call that remains. The spam test includes the writes to the LED
buffer. -/
def callStep (room : Int) (state : Throttle) : Call → Option Call × Throttle
  | .putBioc => (some .putUsr, state.send .tuxInit (state.driver.put [mtcpBiocOn] room))
  | .putUsr => (none, state.send .tuxInit (state.driver.put [mtcpLedUsr] room))
  | .testSpam arg =>
      if state.driver.spam then (none, state)
      else (some .putBuffer, { state with driver := { state.driver with buffer := ledBuffer arg } })
  | .putBuffer => (some .setSpam, state.send .tuxSetLed (state.driver.put state.driver.buffer room))
  | .setSpam => (none, { state with driver := { state.driver with spam := true } })

/-- The packet that acknowledges a command. -/
def ackPacket : Packet := ⟨mtcpAck, 0x80, 0x80⟩

def resetPacket : Packet := ⟨mtcpReset, 0x80, 0x80⟩

end Throttle

/-- The calls of `tuxctl_ioctl` start and take their steps, and packets are handled in between. -/
inductive ThrottleEvent where
  | tuxInit
  | tuxSetLed (arg : BitVec 32)
  | step (index : Nat) (room : Int)
  | ack (index : Nat)
  | reset (rooms : Fin 3 → Int)
  | wakeup (room : Int)

/-- A step of no call, and an acknowledgment of no command that left the transmit buffer, are
refused. -/
def throttleStep (state : Throttle) : ThrottleEvent → Except Unit Throttle
  | .tuxInit => .ok { state with calls := state.calls ++ [.putBioc] }
  | .tuxSetLed arg => .ok { state with calls := state.calls ++ [.testSpam arg] }
  | .step index room =>
      match state.calls[index]? with
      | none => .error ()
      | some call =>
          let stepped := state.callStep room call
          .ok { stepped.2 with calls := replaceCall state.calls index stepped.1 }
  | .ack index =>
      match state.device.pending[index]? with
      | none => .error ()
      | some command =>
          if command.stop + state.driver.tx.used ≤ state.device.received then
            .ok { state with
              driver := state.driver.tuxctlHandlePacket Throttle.ackPacket fun _ => 0
              device := { state.device with pending := state.device.pending.eraseIdx index } }
          else .error ()
  | .reset rooms =>
      .ok (state.send .reset (state.driver.tuxctlHandlePacket Throttle.resetPacket rooms))
  | .wakeup room => .ok { state with driver := state.driver.wakeup room }

end ComputerSystems.Tux
