import ComputerSystems.Construction.Mp2.RtcThread
import ComputerSystems.Construction.Mp2.ShowStatus

namespace ComputerSystems.Mp2

open Library

namespace Display

/-- The build buffer with signed coordinates, without a log. -/
def buffer (display : Display) : BuildBuffer :=
  ⟨⟨display.build, []⟩, fun _ => 0, display.img3Off, display.showX, display.showY⟩

/-- The floor is drawn where the player was. -/
def undraw (display : Display) (posX posY : Nat) (mask : Nat → UInt8) : Display :=
  display.drawFullBlock posX posY mask

end Display

/-- The masks of the player in `blocks.s`, with one binary number for each row. -/
def maskRows : Dir → List Nat
  | .up => [0b000000000000, 0b111000000111, 0b111011110111, 0b111111111111, 0b111111111111,
      0b111111111111, 0b111111111111, 0b111111111111, 0b011111111110, 0b000111111000,
      0b000011110000, 0b000000000000]
  | .right => [0b000011111110, 0b000111111110, 0b000111111110, 0b001111111000, 0b011111111100,
      0b011111111100, 0b011111111100, 0b011111111100, 0b001111111000, 0b001111111110,
      0b000111111110, 0b000011111110]
  | .down => [0b000000000000, 0b000011110000, 0b000111111000, 0b011111111110, 0b111111111111,
      0b111111111111, 0b111111111111, 0b111111111111, 0b111111111111, 0b111011110111,
      0b111000000111, 0b000000000000]
  | .left => [0b011111110000, 0b011111111000, 0b011111111100, 0b000111111100, 0b001111111110,
      0b001111111110, 0b001111111110, 0b001111111110, 0b000111111100, 0b011111111100,
      0b011111111000, 0b011111110000]
  | .stop => []

/-- The pixels of a row go from its highest bit to its lowest. -/
def playerMask (dir : Dir) (i : Nat) : UInt8 :=
  if ((maskRows dir).getD (i / blockXDim) 0).testBit (blockXDim - 1 - i % blockXDim) then 1 else 0

/-- A level as `rtc_thread` plays it: the game, whether the screen is to be shown again, the video
card, the arrays of the status bar, and the time in ticks. -/
structure Session where
  play : Play
  needRedraw : Bool
  video : Video
  drawbuf : DrawBuf
  planes : Nat → Nat → UInt8
  myTime : Nat

/-- What `read` delivers for the interrupts since the last one, and what is asked for at each of the
ticks that are made up for. -/
structure Interrupt where
  data : Nat
  requests : List Request
  limited : requests.length = min (data / 256) 8

/-- The parameters of the status bar. -/
structure StatusSetup where
  font : Int → Nat → UInt8
  fuel : Nat
  unset : Nat → UInt8
  level : Nat

namespace Session

/-- The status bar is shown whether the game has moved or not. -/
def showStatus (setup : StatusSetup) (session : Session) : Option Session :=
  (Mp2.showStatus setup.font setup.fuel setup.unset setup.level session.myTime
    session.play.game.maze.nFruits.toNat session.drawbuf session.planes session.video).map
      fun status => { session with
        drawbuf := status.drawbuf
        planes := status.planes.plane
        video := status.video }

/-- The beginning of a level shows the player before its block is drawn again. -/
def start (blocks : Blocks) (setup : StatusSetup) (game : Game) (session : Session) :
    Option Session :=
  let placed := { game with playX := blockXDim, playY := blockYDim }
  let drawn := (placed.unveilAroundPlayer blocks).2.drawPlayer blocks .up
  showStatus setup { session with
    play := Play.start blocks game
    needRedraw := false
    video := drawn.display.buffer.showScreen session.video
    myTime := 0 }

/-- The inner loop of `rtc_thread`. It ends early when the level is won. -/
def ticks (blocks : Blocks) : List Request → Session → Session
  | [], session => session
  | request :: rest, session =>
      match session.play.tick blocks request with
      | .error _ => session
      | .ok play =>
          if play.gotoNextLevel then { session with play := play }
          else ticks blocks rest { session with
            play := play
            needRedraw := session.needRedraw || play.dir ≠ .stop }

/-- The screen is shown with the player, who is then drawn over with floor. -/
def redraw (blocks : Blocks) (session : Session) : Session :=
  if session.needRedraw then
    let game := session.play.game
    { session with
      video := game.display.buffer.showScreen session.video
      play := { session.play with game := { game with
        display := game.display.undraw game.playX game.playY (blocks blockEmpty) } }
      needRedraw := false }
  else session

/-- One round of the loop of a level. There is none after the level is won. -/
def frame (blocks : Blocks) (setup : StatusSetup) (session : Session) (interrupt : Interrupt) :
    Except Unit Session :=
  if session.play.gotoNextLevel then .error ()
  else
    let ticked := ticks blocks interrupt.requests
      { session with myTime := session.myTime + interrupt.data / 256 }
    match showStatus setup (ticked.redraw blocks) with
    | none => .error ()
    | some next => .ok next

end Session

end ComputerSystems.Mp2
