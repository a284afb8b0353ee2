import ComputerSystems.Construction.Tux.LineDiscipline

namespace ComputerSystems.Tux
open Library

/-- The first byte of a response from the controller. -/
def mtcpResp (n : UInt8) : UInt8 := n &&& 7 ||| (n &&& 0x18) <<< (1 : UInt8) ||| 0x40

/-- The opcode of a command to the controller. -/
def mtcpCmd (c : UInt8) : UInt8 := 0xC0 ||| c

def mtcpAck : UInt8 := mtcpResp 0x0
def mtcpBiocEvent : UInt8 := mtcpResp 0x1
def mtcpReset : UInt8 := mtcpResp 0x6
def mtcpBiocOn : UInt8 := mtcpCmd 0x3
def mtcpLedSet : UInt8 := mtcpCmd 0x6
def mtcpLedUsr : UInt8 := mtcpCmd 0x8

/-- The segments of each hexadecimal digit. -/
def ledmap : List UInt8 :=
  [0xE7, 0x06, 0xCB, 0x8F, 0x2E, 0xAD, 0xED, 0x86, 0xEF, 0xAF, 0xEE, 0x6D, 0xE1, 0x4F, 0xE9, 0xE8]

abbrev decPtPos : UInt8 := 0x10

/-- The static variables of the driver, and its transmit buffer with a log of the bytes that
entered it. -/
structure Driver where
  bStatic : BitVec 32
  cStatic : BitVec 32
  spam : Bool
  buffer : List UInt8
  tx : Buffer
  entered : List UInt8

namespace Driver

/-- The driver when its module is loaded. -/
def init (tx : Buffer) : Driver where
  bStatic := 0
  cStatic := 0
  spam := false
  buffer := [0, 0, 0, 0, 0, 0]
  tx := tx
  entered := []

/-- A wakeup takes bytes from the transmit buffer for the given room of the serial driver. -/
def wakeup (room : Int) (driver : Driver) : Driver :=
  { driver with tx := (takeOutput room driver.tx).2 }

/-- `tuxctl_ldisc_put` ends with a wakeup. -/
def put (buf : List UInt8) (room : Int) (driver : Driver) : Driver :=
  wakeup room { driver with
    tx := (storeOutput buf driver.tx).2
    entered := driver.entered ++ acceptedBytes buf driver.tx }

/-- The rooms are those of the three wakeups for a reset. -/
def tuxctlHandlePacket (packet : Packet) (rooms : Fin 3 → Int) (driver : Driver) : Driver :=
  if packet.opcode = mtcpBiocEvent then
    { driver with
      bStatic := ~~~packet.first.toBitVec.setWidth 32
      cStatic := ~~~packet.second.toBitVec.setWidth 32 }
  else if packet.opcode = mtcpAck then { driver with spam := false }
  else if packet.opcode = mtcpReset then
    let enabled := (driver.put [mtcpBiocOn] (rooms 0)).put [mtcpLedUsr] (rooms 1)
    enabled.put enabled.buffer (rooms 2)
  else driver

/-- The button byte that goes to the user. -/
def buttons (driver : Driver) : BitVec 32 :=
  let bit (word mask result : BitVec 32) : BitVec 32 := if word &&& mask = mask then result else 0
  bit driver.bStatic 0x08 0x08 ||| bit driver.bStatic 0x04 0x04 |||
    bit driver.bStatic 0x02 0x02 ||| bit driver.bStatic 0x01 0x01 |||
    bit driver.cStatic 0x08 0x80 ||| bit driver.cStatic 0x04 0x20 |||
    bit driver.cStatic 0x02 0x40 ||| bit driver.cStatic 0x01 0x10

end Driver

/-- The segments of one LED. The bits of the argument switch on its digit and its decimal point. -/
def ledByte (arg : BitVec 32) (led : Nat) : UInt8 :=
  let digit : BitVec 32 := 0x00010000 <<< led
  let point : BitVec 32 := 0x01000000 <<< led
  let index := (arg &&& (0x0000000F <<< (4 * led))) >>> (4 * led)
  let segments := if arg &&& digit = digit then ledmap.getD index.toNat 0 else 0
  if arg &&& point = point then segments ||| decPtPos else segments

/-- The command that sets all four LEDs. -/
def ledBuffer (arg : BitVec 32) : List UInt8 :=
  [mtcpLedSet, 0x0F, ledByte arg 0, ledByte arg 1, ledByte arg 2, ledByte arg 3]

/-- The ioctls of the driver with the rooms of their wakeups. The flag of `TUX_BUTTONS` says
whether its argument can be read. -/
inductive Ioctl where
  | tuxInit (biocRoom usrRoom : Int)
  | tuxButtons (readable : Bool)
  | tuxSetLed (arg : BitVec 32) (room : Int)
  | other

/-- The value of `-EINVAL`. -/
def einval : Int := -22

/-- The result, the byte for the user of `TUX_BUTTONS`, and the driver after the call. -/
def tuxctlIoctl (ioctl : Ioctl) (driver : Driver) : Int × Option (BitVec 32) × Driver :=
  match ioctl with
  | .tuxInit biocRoom usrRoom =>
      (0, none, (driver.put [mtcpBiocOn] biocRoom).put [mtcpLedUsr] usrRoom)
  | .tuxButtons readable =>
      if readable then (0, some driver.buttons, driver) else (einval, none, driver)
  | .tuxSetLed arg room =>
      if driver.spam then (0, none, driver)
      else
        let prepared := { driver with buffer := ledBuffer arg }
        (0, none, { prepared.put prepared.buffer room with spam := true })
  | .other => (einval, none, driver)

end ComputerSystems.Tux
