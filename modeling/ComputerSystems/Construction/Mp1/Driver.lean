import Mathlib.Tactic

namespace ComputerSystems.Mp1

/-- The fields of a `struct mp1_blink_struct` other than its link. -/
structure Blink where
  location : UInt16
  onChar : UInt8
  offChar : UInt8
  onLength : UInt16
  offLength : UInt16
  countdown : UInt16
  status : UInt16
  deriving DecidableEq

/-- A node of the list with the pointer to the next one. -/
structure BlinkStruct extends Blink where
  next : Nat

inductive HeapEvent where
  | malloc (address : Nat)
  | free (address : Nat)
  deriving DecidableEq

/-- A call goes wrong when it touches memory that is not allocated, frees such memory, or never
comes to the end of the list. An allocator that returns memory in use is no allocator. -/
inductive Fault where
  | deadAccess
  | badFree
  | endless
  | badAllocator
  deriving DecidableEq

/-- The list head, the allocated memory with the history of its allocations, and the video memory
by its offset from `vmem_base_addr` with the offsets of all writes to it. -/
structure Driver where
  listHead : Nat
  node : Nat → BlinkStruct
  live : List Nat
  history : List HeapEvent
  video : Nat → UInt8
  pokes : List Nat

namespace Driver

def read (driver : Driver) (address : Nat) : Except Fault BlinkStruct :=
  if address ∈ driver.live then .ok (driver.node address) else .error .deadAccess

def write (driver : Driver) (address : Nat) (change : BlinkStruct → BlinkStruct) :
    Except Fault Driver :=
  if address ∈ driver.live then
    .ok { driver with node := Function.update driver.node address (change (driver.node address)) }
  else .error .deadAccess

/-- The outcome of `mp1_malloc` is null or memory that is not in use. -/
def mp1Malloc (driver : Driver) : Option Nat → Except Fault (Nat × Driver)
  | none => .ok (0, driver)
  | some address =>
      if address = 0 ∨ address ∈ driver.live then .error .badAllocator
      else .ok (address, { driver with
        live := address :: driver.live
        history := .malloc address :: driver.history })

def mp1Free (driver : Driver) (address : Nat) : Except Fault Driver :=
  if address ∈ driver.live then
    .ok { driver with
      live := driver.live.erase address
      history := .free address :: driver.history }
  else .error .badFree

def mp1Poke (driver : Driver) (offset : Nat) (char : UInt8) : Driver :=
  { driver with
    video := Function.update driver.video offset char
    pokes := offset :: driver.pokes }

/-- A walk that takes more steps than there are allocated nodes is in a cycle. -/
def fuel (driver : Driver) : Nat := driver.live.length + 1

end Driver

/-- The loop of `mp1_search` returns the address of the first node with the location. -/
def travel (driver : Driver) (location : UInt16) : Nat → Nat → Except Fault Nat
  | 0, _ => .error .endless
  | fuel + 1, address =>
      if address = 0 then .ok 0
      else
        match driver.read address with
        | .error fault => .error fault
        | .ok node =>
            if node.location = location then .ok address else travel driver location fuel node.next

def mp1Search (driver : Driver) (location : UInt16) : Except Fault Nat :=
  travel driver location driver.fuel driver.listHead

/-- The body of the loop of the tasklet counts one node down and toggles it at zero. -/
def tickNode (address : Nat) (node : BlinkStruct) (driver : Driver) : Except Fault Driver :=
  let count := node.countdown - 1
  match driver.write address fun node => { node with countdown := count } with
  | .error fault => .error fault
  | .ok counted =>
      if count ≠ 0 then .ok counted
      else if node.status ≠ 0 then
        (counted.write address fun node =>
          { node with status := 0, countdown := node.offLength }).map fun toggled =>
            toggled.mp1Poke (2 * node.location.toNat) node.offChar
      else
        (counted.write address fun node =>
          { node with status := 1, countdown := node.onLength }).map fun toggled =>
            toggled.mp1Poke (2 * node.location.toNat) node.onChar

/-- The loop of the tasklet over the list. -/
def traverse : Nat → Nat → Driver → Except Fault Driver
  | 0, _, _ => .error .endless
  | fuel + 1, address, driver =>
      if address = 0 then .ok driver
      else
        match driver.read address with
        | .error fault => .error fault
        | .ok node =>
            match tickNode address node driver with
            | .error fault => .error fault
            | .ok ticked => traverse fuel node.next ticked

def mp1RtcTasklet (driver : Driver) : Except Fault Driver :=
  traverse driver.fuel driver.listHead driver

/-- What the helpers outside the driver do in one call: the pointer from `mp1_malloc`, the bytes
that `mp1_copy_from_user` has copied and the number that it has not, the location that `find` reads
from the user, and the result of `mp1_copy_to_user`. -/
structure Helpers where
  allocated : Option Nat
  copied : BlinkStruct
  uncopied : Nat
  userLocation : UInt16
  unsent : Nat

/-- The node is linked before its location is checked. -/
def mp1IoctlAdd (helpers : Helpers) (driver : Driver) : Except Fault (Int × Driver) :=
  match driver.mp1Malloc helpers.allocated with
  | .error fault => .error fault
  | .ok (0, driver) => .ok (-1, driver)
  | .ok (address, allocated) =>
      match allocated.write address fun _ => helpers.copied with
      | .error fault => .error fault
      | .ok copied =>
          if helpers.uncopied ≠ 0 then
            (copied.mp1Free address).map fun freed => (-1, freed)
          else
            match copied.write address fun node => { node with
                countdown := node.onLength, status := 1, next := copied.listHead } with
            | .error fault => .error fault
            | .ok written =>
                let linked := { written with listHead := address }
                if 1999 < helpers.copied.location.toNat then
                  (linked.mp1Free address).map fun freed => (-1, freed)
                else
                  .ok (0, linked.mp1Poke (2 * helpers.copied.location.toNat)
                    helpers.copied.onChar)

/-- The loop of `mp1_ioctl_remove` returns the node in front of the one to remove. -/
def remTrav (driver : Driver) (target : Nat) : Nat → Nat → Except Fault Nat
  | 0, _ => .error .endless
  | fuel + 1, address =>
      match driver.read address with
      | .error fault => .error fault
      | .ok node => if node.next = target then .ok address else remTrav driver target fuel node.next

def mp1IoctlRemove (arg : BitVec 32) (driver : Driver) : Except Fault (Int × Driver) :=
  match mp1Search driver ⟨arg.setWidth 16⟩ with
  | .error fault => .error fault
  | .ok 0 => .ok (-1, driver)
  | .ok address =>
      match driver.read address with
      | .error fault => .error fault
      | .ok node =>
          if driver.listHead = address then
            ({ driver with listHead := node.next }.mp1Free address).map fun freed => (0, freed)
          else
            match remTrav driver address driver.fuel driver.listHead with
            | .error fault => .error fault
            | .ok previous =>
                match driver.write previous fun before => { before with next := node.next } with
                | .error fault => .error fault
                | .ok unlinked => (unlinked.mp1Free address).map fun freed => (0, freed)

/-- The found node is read by `mp1_copy_to_user`. -/
def mp1IoctlFind (helpers : Helpers) (arg : BitVec 32) (driver : Driver) :
    Except Fault (Int × Driver) :=
  if arg = 0 then .ok (-1, driver)
  else
    match mp1Search driver helpers.userLocation with
    | .error fault => .error fault
    | .ok 0 => .ok (-1, driver)
    | .ok address =>
        (driver.read address).map fun _ => (if helpers.unsent ≠ 0 then -1 else 0, driver)

/-- The high half of the argument is the first location, and the low half is the second. -/
def mp1IoctlSync (arg : BitVec 32) (driver : Driver) : Except Fault (Int × Driver) :=
  match mp1Search driver ⟨(arg >>> 16).setWidth 16⟩ with
  | .error fault => .error fault
  | .ok first =>
      match mp1Search driver ⟨arg.setWidth 16⟩ with
      | .error fault => .error fault
      | .ok second =>
          if first = 0 then .ok (-1, driver)
          else if second = 0 then .ok (-1, driver)
          else
            match driver.read first with
            | .error fault => .error fault
            | .ok source =>
                match driver.write second fun target => { target with
                    onLength := source.onLength, offLength := source.offLength,
                    countdown := source.countdown, status := source.status } with
                | .error fault => .error fault
                | .ok synced =>
                    (synced.read second).map fun target =>
                      (0, synced.mp1Poke (2 * target.location.toNat)
                        (if target.status = 0 then target.offChar else target.onChar))

/-- The dispatcher compares the command as unsigned. -/
def mp1Ioctl (helpers : Helpers) (arg cmd : BitVec 32) (driver : Driver) :
    Except Fault (Int × Driver) :=
  if 3 < cmd.toNat then .ok (-1, driver)
  else if cmd = 0 then mp1IoctlAdd helpers driver
  else if cmd = 1 then mp1IoctlRemove arg driver
  else if cmd = 2 then mp1IoctlFind helpers arg driver
  else mp1IoctlSync arg driver

/-- A call of the driver or one run of its tasklet. -/
inductive Event where
  | ioctl (helpers : Helpers) (arg cmd : BitVec 32)
  | rtcTasklet

/-- The results of the calls are kept with the last one first. -/
structure System where
  driver : Driver
  results : List Int

def step (system : System) : Event → Except Fault System
  | .ioctl helpers arg cmd =>
      (mp1Ioctl helpers arg cmd system.driver).map fun called =>
        ⟨called.2, called.1 :: system.results⟩
  | .rtcTasklet =>
      (mp1RtcTasklet system.driver).map fun ticked => ⟨ticked, system.results⟩

/-- The driver starts with an empty list and no memory. -/
def start (node : Nat → BlinkStruct) (video : Nat → UInt8) : System :=
  ⟨⟨0, node, [], [], video, []⟩, []⟩

end ComputerSystems.Mp1
