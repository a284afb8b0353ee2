import ComputerSystems.Library.Ring

namespace ComputerSystems.Tux
open Library

abbrev tuxctlBufsize : Nat := 64

/-- The receive buffer or the transmit buffer of the line discipline. -/
abbrev Buffer := Ring UInt8 tuxctlBufsize

/-- The buffers are empty when the line discipline is opened. -/
def openBuffer (slots : Nat → UInt8) : Buffer := ⟨slots, 0, 0, by decide, by decide⟩

/-- The part of `tuxctl_ldisc_write_wakeup` under the lock takes the bytes for the driver. Its loop
goes on while their number is at most the room. -/
def takeOutput (room : Int) (tx : Buffer) : List UInt8 × Buffer :=
  tx.drain fun n => (n : Int) ≤ room

/-- The part of `tuxctl_ldisc_put` under the lock returns the bytes that are not written. -/
def storeOutput (buf : List UInt8) (tx : Buffer) : List UInt8 × Buffer := tx.fill buf

/-- The bytes of a call of `tuxctl_ldisc_put` that enter the transmit buffer. -/
def acceptedBytes (buf : List UInt8) (tx : Buffer) : List UInt8 :=
  buf.take (buf.length - (storeOutput buf tx).1.length)

def tuxctlLdiscGet (n : Nat) (rx : Buffer) : List UInt8 × Buffer := rx.drain fun r => r < n

/-- A packet from the controller. -/
structure Packet where
  opcode : UInt8
  first : UInt8
  second : UInt8
  deriving DecidableEq

/-- The framing bits of three bytes are zero, one, and one. -/
def framed (p0 p1 p2 : UInt8) : Bool :=
  p0 &&& 0x80 == 0 && p1 &&& 0x80 != 0 && p2 &&& 0x80 != 0

/-- The loop over the possible beginnings of packets, on the bytes from the current one on. The
bytes that it leaves are saved. -/
def scanPackets : List UInt8 → List Packet × List UInt8
  | p0 :: p1 :: p2 :: rest =>
      if framed p0 p1 p2 then
        let scanned := scanPackets rest
        (⟨p0, p1, p2⟩ :: scanned.1, scanned.2)
      else scanPackets (p1 :: p2 :: rest)
  | short => ([], short)

/-- The receive buffer and the bytes saved for the next call. -/
structure Receiver where
  rx : Buffer
  saved : List UInt8

/-- The size of `packet`. -/
abbrev packetSize : Nat := 12

/-- The bytes that one call of `tuxctl_ldisc_data_callback` puts into `packet`. -/
def packetBytes (receiver : Receiver) : List UInt8 :=
  receiver.saved ++ (tuxctlLdiscGet (packetSize - receiver.saved.length) receiver.rx).1

/-- The packets go to `tuxctl_handle_packet` in order. -/
def tuxctlLdiscDataCallback (receiver : Receiver) : List Packet × Receiver :=
  let scanned := scanPackets (packetBytes receiver)
  (scanned.1,
    ⟨(tuxctlLdiscGet (packetSize - receiver.saved.length) receiver.rx).2, scanned.2⟩)

/-- The bytes for which there is no space in the receive buffer are returned as dropped. -/
def tuxctlLdiscRcvBuf (cp : List UInt8) (receiver : Receiver) :
    List UInt8 × List Packet × Receiver :=
  let filled := receiver.rx.fill cp
  (filled.1, tuxctlLdiscDataCallback { receiver with rx := filled.2 })

end ComputerSystems.Tux
