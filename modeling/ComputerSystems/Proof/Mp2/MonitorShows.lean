import ComputerSystems.Proof.Mp2.LevelHall
import ComputerSystems.Proof.Mp2.PlayerTicks
import ComputerSystems.Proof.Mp2.ShowScreen
import ComputerSystems.Proof.Mp2.StatusText

namespace ComputerSystems.Mp2

open Library

/-- A pixel of the displayed image. -/
def Video.pixel (video : Video) (sx sy : Nat) : UInt8 :=
  video.memory.memory (sx % 4, video.startAddress + sx / 4 + scrollXWidth * sy)

/-- The copies of the status bar leave the image behind it alone. -/
theorem Video.copyBars_frame (plane : Nat → Nat → UInt8) (video : Video) :
    let copied := forLoop (fun n video =>
      (video.setWriteMask (0x0100 <<< n)).copyBar (plane n) 0) 0 4 video
    copied.crtc = video.crtc ∧ ∀ n offset, barSize ≤ offset →
      copied.memory.memory (n, offset) = video.memory.memory (n, offset) := by
  apply forLoop_rule fun done (current : Video) => current.crtc = video.crtc ∧
    ∀ n offset, barSize ≤ offset →
      current.memory.memory (n, offset) = video.memory.memory (n, offset)
  · exact ⟨rfl, fun _ _ _ => rfl⟩
  · intro done current early before
    rw [Nat.zero_add]
    have copied := @copyBar_copied current done early (plane done)
    have registers : ((current.setWriteMask (0x0100 <<< done)).copyBar (plane done) 0).crtc =
        current.crtc := by
      apply forLoop_rule fun _ (stored : Video) => stored.crtc = current.crtc
      · rfl
      · exact fun _ _ _ same => same
    refine ⟨registers.trans before.1, fun n offset far => ?_⟩
    rw [copied.memory, if_neg (by dsimp only; omega)]
    exact before.2 n offset far

/-- The monitor shows the player in its shape and elsewhere the maze, with floor where the player
went. -/
structure OnMonitor (blocks : Blocks) (spoiled : Set (Nat × Nat)) (game : Game) (dir : Dir)
    (video : Video) : Prop where
  behind : barSize ≤ video.startAddress
  player : ∀ sx < scrollXDim, ∀ sy < scrollYDim,
    (game.mapX + sx, game.mapY + sy) ∈ game.shape blocks dir →
      video.pixel sx sy = blocks (blockPlayerUp + dir.code)
        (Display.squareIndex game.playX game.playY (game.mapX + sx, game.mapY + sy))
  maze : ∀ sx < scrollXDim, ∀ sy < scrollYDim, (game.mapX + sx, game.mapY + sy) ∉ spoiled →
    video.pixel sx sy = pixelOf blocks game.maze (game.mapX + sx, game.mapY + sy) ∨
      video.pixel sx sy ∈ floorTint blocks game.maze (game.mapX + sx, game.mapY + sy)

/-- The screen is shown with the player on it. -/
theorem Portrayed.onMonitor {blocks : Blocks} {spoiled : Set (Nat × Nat)} {game : Game} {dir : Dir}
    (portrayed : Portrayed blocks spoiled game) (appears : game.Appears blocks dir)
    (video : Video) :
    OnMonitor blocks spoiled game dir (game.display.buffer.showScreen video) := by
  obtain ⟨ideal, pictured, mirrors⟩ := portrayed
  have showX : game.display.showX = game.mapX := mirrors.showX.trans pictured.viewed.showX
  have showY : game.display.showY = game.mapY := mirrors.showY.trans pictured.viewed.showY
  obtain ⟨copied, planes, ends⟩ := game.display.buffer.showScreen_planes video
  have start : (game.display.buffer.showScreen video).startAddress = 0x4000 := by
    rw [ends, planes.targetImg]
    exact copied.startAddress_select
  have colors (sx : Nat) (near : sx < scrollXDim) (sy : Nat) (low : sy < scrollYDim) :
      (game.display.buffer.showScreen video).pixel sx sy =
        game.display.color (game.mapX + sx, game.mapY + sy) := by
    have pixel := planes.shown (sx % 4) (Nat.mod_lt sx (by decide)) (sx / 4)
      (by dsimp only [scrollXDim, scrollXWidth] at near ⊢; omega) sy low
    rw [Nat.div_add_mod] at pixel
    rw [Video.pixel, start, ends, Nat.add_assoc]
    refine pixel.trans ?_
    rw [Display.color, ← showX, ← showY]
    refine congrArg game.display.build ?_
    exact Displays.address_eq game.display.buffer_displays.img3Off (game.display.showX + sx)
      (game.display.showY + sy)
  have inWindow (sx : Nat) (near : sx < scrollXDim) (sy : Nat) (low : sy < scrollYDim) :
      (game.mapX + sx, game.mapY + sy) ∈ game.display.window := by
    rw [Display.window, showX, showY]
    exact ⟨⟨Nat.le_add_right _ _, Nat.add_lt_add_left near _⟩, Nat.le_add_right _ _,
      Nat.add_lt_add_left low _⟩
  refine ⟨?_, fun sx near sy low member => ?_, fun sx near sy low clean => ?_⟩
  · rw [start]
    decide
  · rw [colors sx near sy low]
    exact appears _ (inWindow sx near sy low) member
  · have seen := inWindow sx near sy low
    rw [mirrors.window_eq] at seen
    have shown := pictured.shown _ seen
    rw [colors sx near sy low, ← shown]
    exact mirrors.colors _ seen clean

/-- The status bar is drawn in front of the image. -/
theorem OnMonitor.showStatus {blocks : Blocks} {spoiled : Set (Nat × Nat)} {setup : StatusSetup}
    {session next : Session}
    (monitor : OnMonitor blocks spoiled session.play.game session.play.lastDir session.video)
    (shown : session.showStatus setup = some next) :
    (next.play = session.play ∧ next.needRedraw = session.needRedraw) ∧
      OnMonitor blocks spoiled next.play.game next.play.lastDir next.video := by
  rw [Session.showStatus] at shown
  obtain ⟨status, bar, rfl⟩ := Option.map_eq_some_iff.1 shown
  have video : ∃ plane : Nat → Nat → UInt8, status.video = forLoop (fun n video =>
      (video.setWriteMask (0x0100 <<< n)).copyBar (plane n) 0) 0 4 session.video := by
    rw [Mp2.showStatus] at bar
    simp only [Option.bind_eq_bind, Option.bind_eq_some_iff, Option.pure_def,
      Option.some.injEq] at bar
    obtain ⟨_, _, _, _, rfl⟩ := bar
    exact ⟨_, rfl⟩
  obtain ⟨plane, video⟩ := video
  obtain ⟨crtc, frame⟩ := session.video.copyBars_frame plane
  rw [← video] at crtc frame
  have start : status.video.startAddress = session.video.startAddress := by
    rw [Video.startAddress, Video.startAddress, crtc]
  have behind := monitor.behind
  have pixel (sx sy : Nat) : status.video.pixel sx sy = session.video.pixel sx sy := by
    rw [Video.pixel, Video.pixel, start]
    exact frame _ _ (by omega)
  refine ⟨⟨rfl, rfl⟩, by rwa [start], fun sx near sy low member => ?_,
    fun sx near sy low clean => ?_⟩
  · rw [pixel]
    exact monitor.player sx near sy low member
  · rw [pixel]
    exact monitor.maze sx near sy low clean

theorem Play.Rests.trans {first second third : Play} (one : first.Rests second)
    (two : second.Rests third) : first.Rests third :=
  ⟨two.game.trans one.game, two.lastDir.trans one.lastDir⟩

/-- A new level is a hall with the player in its corner. -/
theorem prepared_hall {blocks : Blocks} {fuel : Nat} {random : Nat → Nat} {level : Int}
    {before game : Game}
    (ready : prepareMazeLevel blocks fuel random level before = some (0, game)) :
    game.maze.Hall ∧ game.playX = blockXDim ∧ game.playY = blockYDim := by
  obtain ⟨maze, made, rfl⟩ := prepareMazeLevel_made ready
  exact ⟨Maze.makeMaze_hall made, rfl, rfl⟩

namespace Session

variable {blocks : Blocks} {spoiled : Set (Nat × Nat)} {session next : Session}

/-- What some ticks do to the player: it rests, or it has moved and appears on the display. -/
structure Plays (blocks : Blocks) (spoiled : Set (Nat × Nat)) (requests : List Request)
    (session after : Session) : Prop where
  video : after.video = session.video
  outcome : (after.needRedraw = session.needRedraw ∧ session.play.Rests after.play ∧
      Showing blocks spoiled after.play) ∨
    (after.needRedraw = true ∧ after.play.game.Appears blocks after.play.lastDir ∧
      ∃ left, Showing blocks left after.play ∧ (requests.length ≤ 1 →
        left ⊆ spoiled ∪ after.play.game.shape blocks after.play.lastDir))

/-- The ticks of one frame. -/
theorem ticks_plays (masked : Masked blocks) (requests : List Request)
    (showing : Showing blocks spoiled session.play) (going : session.play.gotoNextLevel = false) :
    Plays blocks spoiled requests session (session.ticks blocks requests) := by
  induction requests generalizing session spoiled with
  | nil => exact ⟨rfl, .inl ⟨rfl, ⟨rfl, rfl⟩, showing⟩⟩
  | cons request rest ih =>
      cases ticked : session.play.tick blocks request with
      | error stop =>
          rw [Play.tick, if_neg (by rw [going]; decide)] at ticked
          dsimp only at ticked
          split_ifs at ticked
      | ok play =>
          rcases showing.tick masked ticked with
            ⟨rests, ends, shown⟩ | ⟨lost, moves, appears, moved⟩
          · cases won : play.gotoNextLevel with
            | true =>
                have last : ticks blocks (request :: rest) session =
                    { session with play := play } := by
                  rw [ticks, ticked]
                  exact if_pos won
                rw [last]
                exact ⟨rfl, .inl ⟨rfl, rests, shown⟩⟩
            | false =>
                have stopped : play.dir = .stop :=
                  ends.resolve_right fun level => Bool.noConfusion (won.symm.trans level)
                have goes : ticks blocks (request :: rest) session =
                    ticks blocks rest { session with play := play } := by
                  rw [ticks, ticked]
                  simp only [won, stopped, ne_eq, not_true_eq_false, decide_false, Bool.or_false,
                    Bool.false_eq_true, if_false]
                obtain ⟨video, outcome⟩ := @ih spoiled { session with play := play } shown won
                rw [goes]
                refine ⟨video, ?_⟩
                rcases outcome with ⟨redraw, later, last⟩ | ⟨redraw, seen, left, last, few⟩
                · exact .inl ⟨redraw, rests.trans later, last⟩
                · exact .inr
                    ⟨redraw, seen, left, last, fun short => few (Nat.le_of_succ_le short)⟩
          · obtain ⟨after, fewer, shown⟩ := moved
            have goes : ticks blocks (request :: rest) session =
                ticks blocks rest { session with play := play, needRedraw := true } := by
              rw [ticks, ticked]
              simp only [lost, ne_eq, moves, not_false_eq_true, decide_true, Bool.or_true,
                Bool.false_eq_true, if_false]
            obtain ⟨video, outcome⟩ :=
              @ih after { session with play := play, needRedraw := true } shown lost
            rw [goes]
            refine ⟨video, .inr ?_⟩
            rcases outcome with ⟨redraw, later, last⟩ | ⟨redraw, seen, left, last, few⟩
            · rw [later.game, later.lastDir]
              exact ⟨redraw, appears, after, last, fun _ => fewer⟩
            · refine ⟨redraw, seen, left, last, fun short => ?_⟩
              obtain rfl : rest = [] := List.eq_nil_of_length_eq_zero (Nat.le_zero.1
                (Nat.le_of_succ_le_succ short))
              exact (few (Nat.zero_le 1)).trans
                (Set.union_subset fewer Set.subset_union_right)

/-- Between two frames the display shows the game without the player, and the monitor with it. -/
structure Watched (blocks : Blocks) (spoiled : Set (Nat × Nat)) (session : Session) : Prop where
  idle : session.needRedraw = false
  showing : Showing blocks ∅ session.play
  within : spoiled ⊆ session.play.game.smeared
  monitor : OnMonitor blocks spoiled session.play.game session.play.lastDir session.video

/-- The player is drawn over with floor after it was shown. -/
theorem undraw_showing {play : Play} (showing : Showing blocks spoiled play) :
    Showing blocks ∅ { play with game := { play.game with
      display := play.game.display.undraw play.game.playX play.game.playY
        (blocks blockEmpty) } } := by
  obtain ⟨off, within, portrayed, following, exposed, settled⟩ := showing
  have opened (x y : Nat) (under : play.game.Overlaps x y) : play.game.maze.Open x y := by
    rcases off.footing with ⟨_, square⟩ | ⟨_, _, track⟩
    · exact square.opened under
    · exact track.opened under
  exact ⟨⟨off.walled, off.footing⟩, Set.empty_subset _, portrayed.undraw within opened exposed,
    ⟨following.column, following.row, following.insideX, following.insideY⟩, exposed, settled⟩

/-- A redraw brings the monitor up to date. -/
theorem Watched.redraw {requests : List Request} {ticked : Session}
    (watched : Watched blocks spoiled session) (plays : Plays blocks ∅ requests session ticked) :
    ∃ after, Watched blocks after (ticked.redraw blocks) ∧ (requests.length ≤ 1 →
      spoiled ⊆ session.play.game.shape blocks session.play.lastDir →
        after ⊆ (ticked.redraw blocks).play.game.shape blocks
          (ticked.redraw blocks).play.lastDir) := by
  obtain ⟨video, ⟨idle, rests, showing⟩ | ⟨redraw, appears, left, showing, few⟩⟩ := plays
  · have still : ticked.redraw blocks = ticked := by
      rw [Session.redraw, idle, watched.idle]
      rfl
    rw [still]
    refine ⟨spoiled, ⟨idle.trans watched.idle, showing, ?_, ?_⟩, fun _ small => ?_⟩
    · rw [rests.game]
      exact watched.within
    · rw [rests.game, rests.lastDir, video]
      exact watched.monitor
    · rw [rests.game, rests.lastDir]
      exact small
  · obtain ⟨behind, player, maze⟩ := showing.portrayed.onMonitor appears ticked.video
    rw [Session.redraw, if_pos redraw]
    refine ⟨left, ⟨rfl, undraw_showing showing, showing.within, behind, player, maze⟩,
      fun short _ => ?_⟩
    have small := few short
    rwa [Set.empty_union] at small

/-- A frame keeps the monitor up to date. -/
theorem Watched.frame {setup : StatusSetup} {interrupt : Interrupt} (masked : Masked blocks)
    (watched : Watched blocks spoiled session)
    (framed : session.frame blocks setup interrupt = .ok next) :
    ∃ after, Watched blocks after next ∧ (interrupt.requests.length ≤ 1 →
      spoiled ⊆ session.play.game.shape blocks session.play.lastDir →
        after ⊆ next.play.game.shape blocks next.play.lastDir) := by
  rw [Session.frame] at framed
  split_ifs at framed with done
  dsimp only at framed
  split at framed
  next => cases framed
  next result shown =>
    cases framed
    have begun : Watched blocks spoiled
        { session with myTime := session.myTime + interrupt.data / 256 } :=
      ⟨watched.idle, watched.showing, watched.within, watched.monitor⟩
    obtain ⟨after, drawn, small⟩ := begun.redraw
      (ticks_plays masked interrupt.requests begun.showing (eq_false_of_ne_true done))
    obtain ⟨⟨play, redraw⟩, monitor⟩ := drawn.monitor.showStatus shown
    refine ⟨after, ⟨redraw.trans drawn.idle, ?_, ?_, monitor⟩, ?_⟩
    · rw [play]
      exact drawn.showing
    · rw [play]
      exact drawn.within
    · rw [play]
      exact small

/-- The player in the corner is shown and then drawn over with its block. -/
theorem corner_shown {shown : Game} (masked : Masked blocks)
    (unveiled : Portrayed blocks ∅ shown)
    (corner : shown.playX = blockXDim ∧ shown.playY = blockYDim)
    (off : OffWalls ⟨(shown.drawPlayer blocks .up).drawBlock blocks shown.playX shown.playY
      (shown.playX / blockXDim) (shown.playY / blockYDim), 0, .up, .stop, false⟩)
    (follows : Following shown) (exposed : shown.Exposed)
    (settled : shown.maze.Settled (shown.playX / blockXDim) (shown.playY / blockYDim))
    (video : Video) :
    Showing blocks ∅ ⟨(shown.drawPlayer blocks .up).drawBlock blocks shown.playX shown.playY
        (shown.playX / blockXDim) (shown.playY / blockYDim), 0, .up, .stop, false⟩ ∧
      OnMonitor blocks (shown.shape blocks .up) (shown.drawPlayer blocks .up) .up
        ((shown.drawPlayer blocks .up).display.buffer.showScreen video) := by
  have moves : Dir.up ≠ .stop := by decide
  have drawn : shown.display.Recolors _ _ _ := drawPlayer_recolors masked moves
  have portrayed := unveiled.drawPlayer masked moves
  rw [Set.empty_union] at portrayed
  have appears : (shown.drawPlayer blocks .up).Appears blocks .up := by
    intro pixel seen member
    rw [Display.window, drawn.showX, drawn.showY] at seen
    exact drawn.shows pixel seen member
  have column : shown.playX = shown.playX / blockXDim * blockXDim := by rw [corner.1]; rfl
  have row : shown.playY = shown.playY / blockYDim * blockYDim := by rw [corner.2]; rfl
  have clean : Portrayed blocks ∅ ((shown.drawPlayer blocks .up).drawBlock blocks shown.playX
      shown.playY (shown.playX / blockXDim) (shown.playY / blockYDim)) :=
    (portrayed.drawBlock column row).mono fun pixel dirty => absurd dirty.1.1 dirty.2
  exact ⟨⟨off, Set.empty_subset _, clean,
    ⟨follows.column, follows.row, follows.insideX, follows.insideY⟩, exposed, fun _ => settled⟩,
    portrayed.onMonitor appears video⟩

/-- The first screen of a level shows the player in the corner. -/
theorem start_watched {setup : StatusSetup} {fuel : Nat} {random : Nat → Nat} {level : Int}
    {before game : Game} (masked : Masked blocks)
    (ready : prepareMazeLevel blocks fuel random level before = some (0, game))
    (started : Session.start blocks setup game session = some next) :
    ∃ after, Watched blocks after next ∧
      after ⊆ next.play.game.shape blocks next.play.lastDir := by
  obtain ⟨hall, placedX, placedY⟩ := prepared_hall ready
  have pictured := Pictured.prepared ready
  have following := Following.prepared ready
  have placed : ({ game with playX := blockXDim, playY := blockYDim } : Game) = game := by
    rw [← placedX, ← placedY]
  have wide : mazeMinXDim ≤ game.maze.xDim := pictured.viewed.xDim ▸ pictured.viewed.wide
  have high : 1 < game.maze.yDim := by
    have bottom := pictured.viewed.bottom
    rw [← pictured.viewed.yDim] at bottom
    dsimp only [scrollYDim, showMin, blockYDim] at bottom
    omega
  have positive : 1 < game.maze.xDim := lt_of_lt_of_le (by decide) wide
  have opened : game.maze.Open 1 1 := hall.opened 1 1 (by decide) (by omega) (by decide) (by omega)
  have off : OffWalls (.start blocks game) :=
    OffWalls.start hall.walled opened (by omega) (by omega)
  have bounded : game.Bounded := by
    constructor
    all_goals
      dsimp only [blockXDim, blockYDim] at *
      omega
  have start : Play.start blocks game =
      ⟨((game.unveilAroundPlayer blocks).2.drawPlayer blocks .up).drawBlock blocks game.playX
        game.playY (game.playX / blockXDim) (game.playY / blockYDim), 0, .up, .stop, false⟩ := by
    rw [Play.start, placed]
    rfl
  have begun : Session.start blocks setup game session = showStatus setup { session with
      play := Play.start blocks game
      needRedraw := false
      video := ((game.unveilAroundPlayer blocks).2.drawPlayer blocks
        .up).display.buffer.showScreen session.video
      myTime := 0 } := by
    rw [Session.start, placed]
  rw [begun, start] at started
  rw [start] at off
  have unveiled : Portrayed blocks ∅ (game.unveilAroundPlayer blocks).2 :=
    ⟨_, pictured.unveilAroundPlayer, .refl _ _ _⟩
  have exposed : (game.unveilAroundPlayer blocks).2.Exposed :=
    game.unveilAt_exposed blocks bounded ⟨le_rfl, Nat.lt_add_of_pos_right (by decide)⟩
      ⟨le_rfl, Nat.lt_add_of_pos_right (by decide)⟩
  have settled : (game.unveilAroundPlayer blocks).2.maze.Settled (game.playX / blockXDim)
      (game.playY / blockYDim) := by
    refine game.unveilAt_settles blocks ?_ ?_
    · rw [placedX]
      dsimp only [blockXDim]
      omega
    · rw [placedY]
      dsimp only [blockYDim]
      omega
  have follows : Following (game.unveilAroundPlayer blocks).2 :=
    ⟨following.column, following.row, following.insideX, following.insideY⟩
  have columns : (game.unveilAroundPlayer blocks).2.playX = blockXDim := placedX
  have rows : (game.unveilAroundPlayer blocks).2.playY = blockYDim := placedY
  rw [show game.playX = (game.unveilAroundPlayer blocks).2.playX from rfl,
    show game.playY = (game.unveilAroundPlayer blocks).2.playY from rfl] at started off settled
  generalize (game.unveilAroundPlayer blocks).2 = shown at *
  obtain ⟨showing, monitor⟩ := @corner_shown blocks shown masked unveiled ⟨columns, rows⟩ off
    follows exposed settled session.video
  have faces : shown.Faces .up := by
    constructor
    · rw [columns]
      exact fun off => absurd (dvd_refl _) off
    · exact fun _ => .inl rfl
  let shownSession : Session := { session with
    play := ⟨(shown.drawPlayer blocks .up).drawBlock blocks shown.playX shown.playY
      (shown.playX / blockXDim) (shown.playY / blockYDim), 0, .up, .stop, false⟩
    needRedraw := false
    video := (shown.drawPlayer blocks .up).display.buffer.showScreen session.video
    myTime := 0 }
  have watched : Watched blocks (shown.shape blocks .up) shownSession :=
    ⟨rfl, showing, Game.shape_subset faces, monitor.behind, monitor.player, monitor.maze⟩
  obtain ⟨⟨play, redraw⟩, kept⟩ := watched.monitor.showStatus started
  refine ⟨_, ⟨redraw, ?_, ?_, kept⟩, ?_⟩
  · rw [play]
    exact watched.showing
  · rw [play]
    exact watched.within
  · rw [play]
    exact Set.Subset.refl _

end Session

/-- In every state between two frames of a level the whole player is on the monitor, and all pixels
but some at the player are those of the maze, or floor on an open location that is uncovered. When
each frame makes up for one tick at most, only the pixels of the player differ. -/
theorem monitor_shows {blocks : Blocks} {setup : StatusSetup} {fuel : Nat} {random : Nat → Nat}
    {level : Int} {before game : Game} {session first last : Session}
    {interrupts : List Interrupt} (masked : Masked blocks)
    (ready : prepareMazeLevel blocks fuel random level before = some (0, game))
    (started : Session.start blocks setup game session = some first)
    (reached : run (Session.frame blocks setup) first interrupts = .ok last) :
    let game := last.play.game
    ((game.mapX ≤ game.playX ∧ game.playX + blockXDim ≤ game.mapX + scrollXDim) ∧
      game.mapY ≤ game.playY ∧ game.playY + blockYDim ≤ game.mapY + scrollYDim) ∧
    ∀ sx < scrollXDim, ∀ sy < scrollYDim,
      let pixel := (game.mapX + sx, game.mapY + sy)
      (pixel ∈ game.shape blocks last.play.lastDir →
        last.video.pixel sx sy = blocks (blockPlayerUp + last.play.lastDir.code)
          (Display.squareIndex game.playX game.playY pixel)) ∧
      (pixel ∉ Display.square game.playX game.playY ∨
          (∀ interrupt ∈ interrupts, interrupt.requests.length ≤ 1) ∧
            pixel ∉ game.shape blocks last.play.lastDir →
        last.video.pixel sx sy = pixelOf blocks game.maze pixel ∨
          game.maze.Trodden (pixel.1 / blockXDim) (pixel.2 / blockYDim) ∧
            ∃ i < blockXDim * blockYDim, last.video.pixel sx sy = blocks blockEmpty i) := by
  intro game
  obtain ⟨corner, started, small⟩ := Session.start_watched masked ready started
  have watched : ∃ spoiled, Session.Watched blocks spoiled last :=
    run_invariant (fun session => ∃ spoiled, Session.Watched blocks spoiled session)
      (fun _ _ _ ⟨_, watched⟩ _ framed =>
        (watched.frame masked framed).imp fun _ later => later.1)
      ⟨corner, started⟩ (along_true _ first interrupts) reached
  have sharp : (∀ interrupt ∈ interrupts, interrupt.requests.length ≤ 1) →
      ∃ spoiled ⊆ game.shape blocks last.play.lastDir, Session.Watched blocks spoiled last := by
    intro short
    refine run_invariant (fun session => ∃ spoiled ⊆
        session.play.game.shape blocks session.play.lastDir, Session.Watched blocks spoiled session)
      ?_ ⟨corner, small, started⟩ (along_of_forall _ first interrupts short) reached
    rintro session interrupt next ⟨spoiled, within, watched⟩ single framed
    obtain ⟨after, later, fits⟩ := watched.frame masked framed
    exact ⟨after, fits single within, later⟩
  obtain ⟨spoiled, watched⟩ := watched
  obtain ⟨column, row, insideX, insideY⟩ := watched.showing.following
  refine ⟨⟨column.seen insideX, row.seen insideY⟩, fun sx near sy low => ⟨?_, ?_⟩⟩
  · exact watched.monitor.player sx near sy low
  · rintro (apart | ⟨short, apart⟩)
    · exact watched.monitor.maze sx near sy low fun dirty => apart (watched.within dirty).1
    · obtain ⟨clean, within, watched⟩ := sharp short
      exact watched.monitor.maze sx near sy low fun dirty => apart (within dirty)

/-- Block pictures of one color each, with the masks of the player. -/
def maskedBlocks : Blocks := fun number i =>
  if number = blockPlayerMaskUp + Dir.up.code then playerMask .up i
  else if number = blockPlayerMaskUp + Dir.right.code then playerMask .right i
  else if number = blockPlayerMaskUp + Dir.down.code then playerMask .down i
  else if number = blockPlayerMaskUp + Dir.left.code then playerMask .left i
  else UInt8.ofNat number

theorem maskedBlocks_masked : Masked maskedBlocks := by
  intro dir moves i pixel
  cases dir with
  | stop => exact absurd rfl moves
  | up => rfl
  | right => rfl
  | down => rfl
  | left => rfl

def newSession (game : Game) : Session :=
  ⟨Play.start maskedBlocks game, false, blankVideo, ⟨fun _ => 0, []⟩, fun _ _ => 0, 0⟩

def statusSetup : StatusSetup := ⟨halves, 64, fun _ => 0, 1⟩

/-- A frame with one tick, and one that makes up for two. -/
def frames : List Interrupt :=
  [⟨256, [⟨.down, true⟩], rfl⟩, ⟨512, [⟨.down, true⟩, ⟨.down, true⟩], rfl⟩]

theorem monitor_shows_frames : ∃ game first last,
    prepareMazeLevel maskedBlocks 200 snake 1 newGame = some (0, game) ∧
      Session.start maskedBlocks statusSetup game (newSession game) = some first ∧
        run (Session.frame maskedBlocks statusSetup) first frames = .ok last ∧
          last.play.game.playY = 15 ∧ last.play.game.mapY ≤ last.play.game.playY := by
  have finishes : ((prepareMazeLevel maskedBlocks 200 snake 1 newGame).map fun ready =>
      ready.1 = 0 && ((Session.start maskedBlocks statusSetup ready.2 (newSession ready.2)).map
        fun first => runCheck (Session.frame maskedBlocks statusSetup) first frames
          fun last => last.play.game.playY = 15) = some true) = some true := by decide +kernel
  obtain ⟨⟨result, game⟩, ready, passed⟩ := Option.map_eq_some_iff.1 finishes
  rw [Bool.and_eq_true] at passed
  obtain rfl : result = 0 := of_decide_eq_true passed.1
  obtain ⟨first, started, rest⟩ := Option.map_eq_some_iff.1 (of_decide_eq_true passed.2)
  obtain ⟨last, reached, moved⟩ := runCheck_sound rest
  exact ⟨game, first, last, ready, started, reached, of_decide_eq_true moved,
    (monitor_shows maskedBlocks_masked ready started reached).1.2.1⟩

end ComputerSystems.Mp2
