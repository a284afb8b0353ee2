import ComputerSystems.Construction.Mp1.Driver

namespace ComputerSystems.Fish

open Mp1 (Blink BlinkStruct Fault)

/-- The list head, the memory that holds nodes, and the video memory by its offset from
`vmem_base_addr`. The number of nodes that were ever linked bounds the length of the list. -/
structure Engine where
  listHead : Nat
  node : Nat → BlinkStruct
  video : Nat → UInt8
  linked : Nat

namespace Engine

def write (engine : Engine) (address : Nat) (change : BlinkStruct → BlinkStruct) : Engine :=
  { engine with node := Function.update engine.node address (change (engine.node address)) }

def mp1Poke (engine : Engine) (offset : Nat) (char : UInt8) : Engine :=
  { engine with video := Function.update engine.video offset char }

/-- A walk that takes more steps than nodes were ever linked is in a cycle. -/
def fuel (engine : Engine) : Nat := engine.linked + 1

end Engine

/-- The copy always succeeds. -/
def ece391Memcpy {Value : Type} (source : Value) : Value × Int := (source, 0)

/-- `ece391_memset` with zero. -/
def zeroed : BlinkStruct := ⟨⟨0, 0, 0, 0, 0, 0, 0⟩, 0⟩

def mp1Free (engine : Engine) (address : Nat) : Engine := engine.write address fun _ => zeroed

/-- One round of `tasklet_loop`. The test of the countdown is signed, and the test of the status
looks at its lowest bit. -/
def taskletNode (address : Nat) (engine : Engine) : Engine :=
  let counted := engine.write address fun node => { node with countdown := node.countdown - 1 }
  let node := counted.node address
  if 0 < node.countdown.toBitVec.toInt then counted
  else
    let offset := 2 * node.location.toNat
    if node.status &&& 1 = 0 then
      (counted.mp1Poke offset node.onChar).write address fun node =>
        { node with countdown := node.onLength, status := node.status ^^^ 1 }
    else
      (counted.mp1Poke offset node.offChar).write address fun node =>
        { node with countdown := node.offLength, status := node.status ^^^ 1 }

def taskletLoop : Nat → Nat → Engine → Except Fault Engine
  | 0, _, _ => .error .endless
  | fuel + 1, address, engine =>
      if address = 0 then .ok engine
      else
        let ticked := taskletNode address engine
        taskletLoop fuel (ticked.node address).next ticked

def mp1RtcTasklet (engine : Engine) : Except Fault Engine :=
  taskletLoop engine.fuel engine.listHead engine

/-- The loop of `mp1_find_helper`. -/
def findLoop (engine : Engine) (location : UInt16) : Nat → Nat → Except Fault Nat
  | 0, _ => .error .endless
  | fuel + 1, address =>
      if address = 0 then .ok 0
      else if (engine.node address).location = location then .ok address
      else findLoop engine location fuel (engine.node address).next

def mp1FindHelper (engine : Engine) (location : UInt16) : Except Fault Nat :=
  findLoop engine location engine.fuel engine.listHead

/-- The structure is completed on the stack before memory is asked for. The pointer that
`mp1_malloc` returns is an argument. -/
def mp1IoctlAdd (user : BlinkStruct) (allocated : Nat) (engine : Engine) : Int × Engine :=
  let (copied, failed) := ece391Memcpy user
  if failed ≠ 0 then (-1, engine)
  else if 80 * 25 ≤ copied.location.toNat then (-1, engine)
  else
    let temp := { copied with status := 1, countdown := copied.onLength }
    if allocated = 0 then (-1, engine)
    else
      let stored := engine.write allocated fun _ => (ece391Memcpy temp).1
      let linked := { stored.write allocated fun node => { node with next := engine.listHead } with
        listHead := allocated
        linked := engine.linked + 1 }
      let node := linked.node allocated
      (0, linked.mp1Poke (2 * node.location.toNat) node.onChar)

/-- A place in memory that holds a pointer to a node. -/
inductive Link where
  | listHead
  | next (address : Nat)

def Engine.deref (engine : Engine) : Link → Nat
  | .listHead => engine.listHead
  | .next address => (engine.node address).next

def Engine.store (engine : Engine) (pointer : Nat) : Link → Engine
  | .listHead => { engine with listHead := pointer }
  | .next address => engine.write address fun node => { node with next := pointer }

/-- The loop goes from link to link until it comes to the one that holds the target. It fails when
it would follow the null pointer. -/
def removeFindPrev (engine : Engine) (target : Nat) : Nat → Link → Except Fault Link
  | 0, _ => .error .endless
  | fuel + 1, link =>
      if engine.deref link = target then .ok link
      else if engine.deref link = 0 then .error .deadAccess
      else removeFindPrev engine target fuel (.next (engine.deref link))

def mp1IoctlRemove (arg : BitVec 32) (engine : Engine) : Except Fault (Int × Engine) :=
  match mp1FindHelper engine ⟨arg.setWidth 16⟩ with
  | .error fault => .error fault
  | .ok 0 => .ok (-1, engine)
  | .ok address =>
      match removeFindPrev engine address engine.fuel .listHead with
      | .error fault => .error fault
      | .ok link => .ok (0, mp1Free (engine.store (engine.node address).next link) address)

/-- The location comes from the user, and the node goes to the user. -/
def mp1IoctlFind (location : UInt16) (engine : Engine) :
    Except Fault (Int × Engine) :=
  let (wanted, failed) := ece391Memcpy location
  if failed ≠ 0 then .ok (-1, engine)
  else
    match mp1FindHelper engine wanted with
    | .error fault => .error fault
    | .ok 0 => .ok (-1, engine)
    | .ok address =>
        if (ece391Memcpy (engine.node address)).2 = 0 then .ok (0, engine) else .ok (-1, engine)

/-- The character is selected by `cmovl` after a `testb`. The test clears the overflow flag, and
its sign flag is the highest bit of the tested byte. -/
def syncChar (blink : Blink) : UInt8 :=
  if (blink.status.toBitVec.setWidth 8 &&& 1).msb then blink.onChar else blink.offChar

/-- The second location is not searched when the first is absent. -/
def mp1IoctlSync (arg : BitVec 32) (engine : Engine) : Except Fault (Int × Engine) :=
  match mp1FindHelper engine ⟨(arg >>> 16).setWidth 16⟩ with
  | .error fault => .error fault
  | .ok 0 => .ok (-1, engine)
  | .ok first =>
      match mp1FindHelper engine ⟨(arg &&& 0xFFFF).setWidth 16⟩ with
      | .error fault => .error fault
      | .ok 0 => .ok (-1, engine)
      | .ok second =>
          let source := engine.node first
          let synced := engine.write second fun target => { target with
            onLength := source.onLength, offLength := source.offLength,
            countdown := source.countdown, status := source.status }
          let target := synced.node second
          .ok (0, synced.mp1Poke (2 * target.location.toNat) (syncChar target.toBlink))

/-- The calls of `call_table`. -/
inductive Call where
  | add (user : BlinkStruct) (allocated : Nat)
  | remove (arg : BitVec 32)
  | find (location : UInt16)
  | sync (arg : BitVec 32)

def mp1Ioctl (engine : Engine) : Call → Except Fault (Int × Engine)
  | .add user allocated => .ok (mp1IoctlAdd user allocated engine)
  | .remove arg => mp1IoctlRemove arg engine
  | .find location => mp1IoctlFind location engine
  | .sync arg => mp1IoctlSync arg engine

inductive Event where
  | ioctl (call : Call)
  | tasklet

/-- The results of the calls are kept with the last one first. -/
structure System where
  engine : Engine
  results : List Int

def step (system : System) : Event → Except Fault System
  | .ioctl call => (mp1Ioctl system.engine call).map fun called =>
      ⟨called.2, called.1 :: system.results⟩
  | .tasklet => (mp1RtcTasklet system.engine).map fun ticked => ⟨ticked, system.results⟩

/-- The list is empty at first. -/
def start (node : Nat → BlinkStruct) (video : Nat → UInt8) : System := ⟨⟨0, node, video, 0⟩, []⟩

/-- The pointer to an entry of `blink_array`. -/
def slot (index : Nat) : Nat := index + 1

/-- The loop of `mp1_malloc` over a number of entries. It returns the first entry with location 0,
or the null pointer. -/
def mallocLoop (engine : Engine) (entries : Nat) : Nat :=
  match (List.range entries).find? fun index => (engine.node (slot index)).location = 0 with
  | some index => slot index
  | none => 0

def mp1Malloc (engine : Engine) : Nat := mallocLoop engine (80 * 25)

/-- What the program asks for. The memory of an add comes from `mp1_malloc`. -/
inductive Request where
  | add (user : BlinkStruct)
  | remove (arg : BitVec 32)
  | find (location : UInt16)
  | sync (arg : BitVec 32)
  | tasklet

def Request.event (engine : Engine) : Request → Event
  | .add user => .ioctl (.add user (mp1Malloc engine))
  | .remove arg => .ioctl (.remove arg)
  | .find location => .ioctl (.find location)
  | .sync arg => .ioctl (.sync arg)
  | .tasklet => .tasklet

def serve (system : System) (request : Request) : Except Fault System :=
  step system (request.event system.engine)

end ComputerSystems.Fish
