import ComputerSystems.Construction.Mp2.GameLoop
import ComputerSystems.Library.Monitor

namespace ComputerSystems.Mp2.Threads

open Library Monitor

inductive Thread where
  | rtc
  | keyboard
  | tux
  deriving DecidableEq

/-- The variables that the threads share. -/
structure Shared where
  nextDir : Dir
  buttons : UInt8
  buttonsPressed : Bool
  quitFlag : Bool
  winner : Bool

/-- What comes from outside in a step: the data of the clock, the buttons of the controller, the
value behind the array of open directions, a key, and the random numbers for a maze. -/
structure Input where
  data : Nat
  polled : UInt8
  behind : Bool
  key : UInt8
  fuel : Nat
  random : Nat → Nat

/-- The places in the code of `rtc_thread`. Each read of `next_dir` has its own. -/
inductive RtcPlace where
  | levels
  | prepare
  | stopDir (game : Game)
  | begin (game : Game)
  | first
  | head
  | read
  | ticks
  | poll
  | testButtons
  | lockPressed (pressed : Bool)
  | setPressed (pressed : Bool)
  | unlockPressed
  | lockSignal
  | testSignal
  | unlockSignal
  | lockDir
  | compare
  | opposite
  | turn
  | square
  | tryTurn (isOpen : Dir → Bool)
  | assign (isOpen : Dir → Bool)
  | settle (isOpen : Dir → Bool)
  | unlockDir
  | unlockWon
  | move
  | draw
  | left
  | finish
  | done

structure RtcLocal where
  place : RtcPlace
  level : Nat
  ticks : Nat
  session : Session

inductive KeyboardPlace where
  | head
  | getc
  | lockKey (key : UInt8)
  | setKey (key : UInt8)
  | unlockKey
  | done

structure KeyboardLocal where
  place : KeyboardPlace
  state : Nat

/-- The places in the code of `tux_thread`. Each test of `buttons` has its own. -/
inductive TuxLocal where
  | head
  | lock
  | test
  | relock
  | right
  | left
  | down
  | up
  | set (dir : Dir)
  | unlock
  | done

abbrev Local : Thread → Type
  | .rtc => RtcLocal
  | .keyboard => KeyboardLocal
  | .tux => TuxLocal

abbrev maxLevel : Nat := 10

section
variable (blocks : Blocks) (setup : Nat → StatusSetup)

/-- The moves that remain to the square behind the player. -/
def turnedMoves (play : Play) : Int :=
  if 0 < play.moveCnt then
    if play.dir = .up ∨ play.dir = .down then blockYDim - play.moveCnt
    else blockXDim - play.moveCnt
  else play.moveCnt

/-- The direction may not be open, or the player has stopped. -/
def settled (isOpen : Dir → Bool) (play : Play) : Play :=
  if play.dir = .stop then play
  else if ¬ isOpen play.dir then { play with dir := .stop }
  else if play.dir = .up ∨ play.dir = .down then { play with moveCnt := blockYDim }
  else { play with moveCnt := blockXDim }

/-- What a run hears from outside: the clock, and the direction at each lock of a tick. -/
inductive Entry where
  | read (data : Nat)
  | ask (dir : Dir)
  deriving DecidableEq

namespace RtcLocal

/-- What a step of `rtc_thread` hears. -/
def noted (here : RtcLocal) (shared : Shared) (input : Input) : List Entry :=
  match here.place with
  | .read => [.read input.data]
  | .lockDir => [.ask shared.nextDir]
  | _ => []

/-- The thread goes on at another place. -/
def goto (here : RtcLocal) (place : RtcPlace) : RtcLocal := { here with place := place }

/-- The game changes, and the thread goes on at another place. -/
def plays (here : RtcLocal) (play : Play) (place : RtcPlace) : RtcLocal :=
  { here with session := { here.session with play := play }, place := place }

end RtcLocal

def rtcCode (here : RtcLocal) (shared : Shared) (input : Input) :
    Option (Action × RtcLocal × Shared) :=
  let session := here.session
  let play := session.play
  match here.place with
  | .levels =>
      if here.level ≤ maxLevel ∧ shared.quitFlag = false then
        some (.run, here.goto .prepare, shared)
      else some (.run, here.goto .finish, shared)
  | .prepare =>
      (prepareMazeLevel blocks input.fuel input.random here.level play.game).map fun prepared =>
        (.run, here.goto (if prepared.1 ≠ 0 then .finish else .stopDir prepared.2), shared)
  | .stopDir game => some (.run, here.goto (.begin game), { shared with nextDir := .stop })
  | .begin game =>
      (Session.start blocks (setup here.level) game session).map fun next =>
        (.run, { here with session := next, place := .first }, shared)
  | .first => some (.run, here.goto .head, shared)
  | .head =>
      if shared.quitFlag = false ∧ play.gotoNextLevel = false then
        some (.run, here.goto .read, shared)
      else some (.run, here.goto .left, shared)
  | .read =>
      some (.run, { here with
        place := .ticks
        ticks := min (input.data / 256) 8
        session := { session with myTime := session.myTime + input.data / 256 } }, shared)
  | .ticks =>
      if here.ticks = 0 then some (.run, here.goto .draw, shared)
      else some (.run, { here with place := .poll, ticks := here.ticks - 1 }, shared)
  | .poll => some (.run, here.goto .testButtons, { shared with buttons := input.polled })
  | .testButtons => some (.run, here.goto (.lockPressed (shared.buttons ≠ 0)), shared)
  | .lockPressed pressed => some (.lock, here.goto (.setPressed pressed), shared)
  | .setPressed pressed =>
      some (.run, here.goto .unlockPressed, { shared with buttonsPressed := pressed })
  | .unlockPressed => some (.unlock, here.goto .lockSignal, shared)
  | .lockSignal => some (.lock, here.goto .testSignal, shared)
  | .testSignal =>
      some (if shared.buttonsPressed then .signal else .run, here.goto .unlockSignal, shared)
  | .unlockSignal => some (.unlock, here.goto .lockDir, shared)
  | .lockDir => some (.lock, here.goto .compare, shared)
  | .compare =>
      some (.run, here.goto (if shared.nextDir ≠ play.dir then .opposite else .square), shared)
  | .opposite =>
      if play.dir.isOpposite shared.nextDir then
        some (.run, here.plays { play with moveCnt := turnedMoves play } .turn, shared)
      else some (.run, here.goto .square, shared)
  | .turn => some (.run, here.plays { play with dir := shared.nextDir } .square, shared)
  | .square =>
      if play.moveCnt = 0 then
        let unveiled := play.game.unveilAroundPlayer blocks
        if unveiled.1 then
          some (.run, here.plays { play with game := unveiled.2 } .unlockWon, shared)
        else
          let isOpen := findOpenDirections unveiled.2.maze (play.game.playX / blockXDim : Nat)
            (play.game.playY / blockYDim : Nat) input.behind
          some (.run, here.plays { play with game := unveiled.2 } (.tryTurn isOpen), shared)
      else some (.run, here.goto .unlockDir, shared)
  | .tryTurn isOpen =>
      some (.run, here.goto (if isOpen shared.nextDir then .assign isOpen else .settle isOpen),
        shared)
  | .assign isOpen =>
      some (.run, here.plays { play with dir := shared.nextDir } (.settle isOpen), shared)
  | .settle isOpen => some (.run, here.plays (settled isOpen play) .unlockDir, shared)
  | .unlockDir => some (.unlock, here.goto .move, shared)
  | .unlockWon => some (.unlock, here.plays { play with gotoNextLevel := true } .draw, shared)
  | .move =>
      some (.run, { here with
        place := .ticks
        session := { session with
          play := play.move blocks
          needRedraw := session.needRedraw || play.dir ≠ .stop } }, shared)
  | .draw =>
      (Session.showStatus (setup here.level) (session.redraw blocks)).map fun next =>
        (.run, { here with session := next, place := .head }, shared)
  | .left =>
      some (.run, { here with
        place := .levels
        level := here.level + 1
        session := { session with myTime := 0 } }, shared)
  | .finish =>
      some (.run, here.goto .done, { shared with winner := shared.winner || !shared.quitFlag })
  | .done => none

end

def arrow (key : UInt8) (nextDir : Dir) : Dir :=
  if key = 65 then .up
  else if key = 66 then .down
  else if key = 67 then .right
  else if key = 68 then .left
  else nextDir

/-- An arrow key delivers three characters. -/
def keyboardCode (here : KeyboardLocal) (shared : Shared) (input : Input) :
    Option (Action × KeyboardLocal × Shared) :=
  match here.place with
  | .head =>
      some (.run, { here with place := if shared.winner then .done else .getc }, shared)
  | .getc =>
      let key := input.key
      if key = 96 then some (.run, { here with place := .done }, { shared with quitFlag := true })
      else if key = 27 then some (.run, ⟨.head, 1⟩, shared)
      else if key = 91 ∧ here.state = 1 then some (.run, ⟨.head, 2⟩, shared)
      else if 65 ≤ key ∧ key ≤ 68 ∧ here.state = 2 then
        some (.run, { here with place := .lockKey key }, shared)
      else some (.run, ⟨.head, 0⟩, shared)
  | .lockKey key => some (.lock, { here with place := .setKey key }, shared)
  | .setKey key =>
      some (.run, { here with place := .unlockKey },
        { shared with nextDir := arrow key shared.nextDir })
  | .unlockKey => some (.unlock, ⟨.head, 0⟩, shared)
  | .done => none

def tuxCode (here : TuxLocal) (shared : Shared) : Option (Action × TuxLocal × Shared) :=
  match here with
  | .head => some (.run, if shared.winner then .done else .lock, shared)
  | .lock => some (.lock, .test, shared)
  | .test =>
      if shared.buttonsPressed then some (.run, .right, shared) else some (.wait, .relock, shared)
  | .relock => some (.lock, .test, shared)
  | .right => some (.run, if shared.buttons &&& 0x80 = 0x80 then .set .right else .left, shared)
  | .left => some (.run, if shared.buttons &&& 0x40 = 0x40 then .set .left else .down, shared)
  | .down => some (.run, if shared.buttons &&& 0x20 = 0x20 then .set .down else .up, shared)
  | .up => some (.run, if shared.buttons &&& 0x10 = 0x10 then .set .up else .unlock, shared)
  | .set dir => some (.run, .unlock, { shared with nextDir := dir })
  | .unlock => some (.unlock, .head, shared)
  | .done => none

def code (blocks : Blocks) (setup : Nat → StatusSetup) : Code Thread Local Shared Input
  | .rtc => rtcCode blocks setup
  | .keyboard => keyboardCode
  | .tux => fun here shared _ => tuxCode here shared

/-- What an event lets `rtc_thread` hear. -/
def hears (state : State Thread Local Shared) : Event Thread Input → List Entry
  | .turn .rtc input => (state.locals .rtc).noted state.shared input
  | _ => []

/-- What `rtc_thread` hears in a run. -/
def heard (blocks : Blocks) (setup : Nat → StatusSetup) :
    State Thread Local Shared → List (Event Thread Input) → List Entry
  | _, [] => []
  | state, event :: rest =>
      match Monitor.step (code blocks setup) state event with
      | .error _ => []
      | .ok next => hears state event ++ heard blocks setup next rest

/-- The places at which a thread has the lock. -/
def inside : (thread : Thread) → Local thread → Bool
  | .rtc, here =>
      match here.place with
      | .setPressed _ | .unlockPressed | .testSignal | .unlockSignal | .compare | .opposite
      | .turn | .square | .tryTurn _ | .assign _ | .settle _ | .unlockDir | .unlockWon => true
      | _ => false
  | .keyboard, here =>
      match here.place with
      | .setKey _ | .unlockKey => true
      | _ => false
  | .tux, here =>
      match here with
      | .test | .right | .left | .down | .up | .set _ | .unlock => true
      | _ => false

/-- The threads are created with the lock free. -/
def start (shared : Shared) (session : Session) : State Thread Local Shared where
  locals
    | .rtc => ⟨.levels, 1, 0, session⟩
    | .keyboard => ⟨.head, 0⟩
    | .tux => .head
  shared := shared
  owner := none
  asleep := fun _ => false

end ComputerSystems.Mp2.Threads
