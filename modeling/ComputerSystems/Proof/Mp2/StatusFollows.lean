import ComputerSystems.Proof.Mp2.MonitorShows

namespace ComputerSystems.Mp2

open Library Chars

namespace Maze

variable {maze other : Maze}

/-- The generation adds as many fruits as asked for. -/
theorem addFruits_nFruits {random : Nat → Nat} {fuel count drawn last : Nat}
    (added : addFruits random fuel count maze drawn = some (other, last)) :
    other.nFruits = maze.nFruits + count := by
  induction count generalizing maze drawn with
  | zero =>
      cases added
      exact (add_zero _).symm
  | succ count ih =>
      rw [addFruits] at added
      cases first : addAFruitInternal random fuel maze drawn with
      | none =>
          rw [first] at added
          cases added
      | some result =>
          rw [first] at added
          rw [addAFruitInternal] at first
          obtain ⟨⟨x, y, seen⟩, _, rfl⟩ := Option.map_eq_some_iff.1 first
          have counted := ih added
          dsimp only at counted
          rw [counted, Nat.cast_succ]
          omega

theorem makeMaze_nFruits {fuel : Nat} {random : Nat → Nat} {xDim yDim startFruits : Nat}
    {before : Maze} (made : makeMaze fuel random xDim yDim startFruits before = some (0, maze)) :
    maze.nFruits = startFruits := by
  obtain ⟨_, _, _, fruited, last, _, added, placed⟩ := makeMaze_stages made
  rw [placeExit] at placed
  obtain ⟨⟨x, y, seen⟩, _, rfl⟩ := Option.map_eq_some_iff.1 placed
  have counted := addFruits_nFruits added
  dsimp only at counted
  rw [zero_add] at counted
  exact counted

end Maze

theorem prepared_nFruits {blocks : Blocks} {fuel : Nat} {random : Nat → Nat} {level : Int}
    {before game : Game}
    (ready : prepareMazeLevel blocks fuel random level before = some (0, game)) :
    game.maze.nFruits ≤ 6 := by
  obtain ⟨maze, made, rfl⟩ := prepareMazeLevel_made ready
  dsimp only
  rw [Maze.makeMaze_nFruits made]
  omega

section Eating

variable (blocks : Blocks)

theorem unveilSpaces_nFruits (x y : Int) (offsets : List (Int × Int)) (scene : Maze × Display) :
    (offsets.foldl (fun scene offset =>
      unveilSpace blocks (x + offset.1) (y + offset.2) scene) scene).1.nFruits =
        scene.1.nFruits := by
  induction offsets generalizing scene with
  | nil => rfl
  | cons offset rest ih =>
      refine (ih (unveilSpace blocks (x + offset.1) (y + offset.2) scene)).trans ?_
      rw [unveilSpace]
      dsimp only
      split_ifs <;> rfl

/-- An exposure eats one fruit at most. -/
theorem Game.unveilAt_nFruits (game : Game) (playX playY : Nat) :
    (game.unveilAt blocks playX playY).maze.nFruits ≤ game.maze.nFruits := by
  have kept := unveilSpaces_nFruits blocks (playX / blockXDim : Nat) (playY / blockYDim : Nat)
    around (checkForFruit blocks (playX / blockXDim) (playY / blockYDim)
      (game.maze, game.display)).2
  refine le_trans (le_of_eq kept) ?_
  rw [checkForFruit]
  dsimp only
  split_ifs
  · exact le_rfl
  · exact Int.sub_le_self _ (by decide)
  · exact Int.sub_le_self _ (by decide)
  · exact le_rfl

theorem Game.go_maze (game : Game) (dir : Dir) : (game.go blocks dir).maze = game.maze := by
  cases dir with
  | up => exact (game.moveUp_moved blocks).1
  | right => exact (game.moveRight_moved blocks).1
  | down => exact (game.moveDown_moved blocks).1
  | left => exact (game.moveLeft_moved blocks).1
  | stop => rfl

/-- A tick adds no fruit. -/
theorem Play.tick_nFruits {play next : Play} {request : Request}
    (ticked : play.tick blocks request = .ok next) :
    next.game.maze.nFruits ≤ play.game.maze.nFruits := by
  have moves (ready : Play) : (ready.move blocks).game.maze.nFruits ≤ ready.game.maze.nFruits := by
    rw [Play.move]
    split_ifs with stopped
    · exact le_rfl
    · obtain ⟨playX, playY, ahead, _⟩ :=
        (ready.game.go blocks ready.dir).unveilAhead_eq blocks ready.dir
      have eaten := (ready.game.go blocks ready.dir).unveilAt_nFruits blocks playX playY
      rw [Game.go_maze] at eaten
      dsimp only
      rw [ahead]
      exact eaten
  have arrives (ready : Play) :
      (ready.newSquare blocks request).game.maze.nFruits ≤ ready.game.maze.nFruits := by
    have eaten := ready.game.unveilAt_nFruits blocks ready.game.playX ready.game.playY
    rw [Play.newSquare]
    dsimp only
    split_ifs <;> exact eaten
  rw [Play.tick] at ticked
  split_ifs at ticked
  dsimp only at ticked
  rw [← (play.turnBack_rests request.nextDir).game]
  generalize play.turnBack request.nextDir = turned at *
  split_ifs at ticked
  all_goals cases ticked
  · exact arrives turned
  · exact (moves _).trans (arrives turned)
  · exact le_rfl
  · exact moves turned

end Eating

section Text

theorem numeral_ascii (value : Nat) : ∀ char ∈ numeral 10 value, char < 128 := by
  intro char member
  obtain ⟨digit, small, rfl⟩ := numeral_digit (by decide) member
  rw [UInt8.lt_iff_toNat_lt, digitChar_toNat (by omega), if_pos small]
  exact Nat.lt_of_lt_of_le (Nat.add_lt_add_left small 48) (by decide)

theorem zeroPadded_ascii (value : Nat) : ∀ char ∈ zeroPadded value, char < 128 := by
  rw [zeroPadded]
  split_ifs
  · rintro char (_ | ⟨_, member⟩)
    · decide
    · exact numeral_ascii value char member
  · exact numeral_ascii value

/-- The text of the status bar has characters of the font only. -/
theorem barText_ascii (lvl tick froot : Nat) : ∀ char ∈ barText lvl tick froot, char < 128 := by
  have plain (text : List UInt8) (all : text.all (fun char => char < 128) = true) :
      ∀ char ∈ text, char < 128 :=
    fun char member => of_decide_eq_true (List.all_eq_true.1 all char member)
  have word : ∀ char ∈ fruitWord froot, char < 128 := by
    rw [fruitWord]
    split_ifs
    · exact plain _ (by decide)
    · exact plain _ (by decide)
  intro char member
  simp only [barText, timeText, List.mem_append] at member
  rcases member with (((((title | level) | gap) | fruits) | fruit) | space) | (minutes | colon) |
    seconds
  · exact plain (ascii "Level ") (by decide) char title
  · exact numeral_ascii lvl char level
  · exact plain (ascii "    ") (by decide) char gap
  · exact numeral_ascii froot char fruits
  · exact word char fruit
  · exact plain (ascii "    ") (by decide) char space
  · exact zeroPadded_ascii _ char minutes
  · exact plain (ascii ":") (by decide) char colon
  · exact zeroPadded_ascii _ char seconds

/-- The draw buffer gets the text of the status bar. -/
theorem showStatus_text {font : Int → Nat → UInt8} {fuel lvl tick froot : Nat}
    {unset : Nat → UInt8} {drawbuf : DrawBuf} {plane : Nat → Nat → UInt8} {video : Video}
    {status : StatusBar} (last : lvl ≤ 10) (few : froot ≤ 99) (ticks : tick < 2 ^ 31)
    (enough : 64 ≤ fuel)
    (shown : showStatus font fuel unset lvl tick froot drawbuf plane video = some status) :
    status.drawbuf = strbuff font (barText lvl tick froot) lvl drawbuf := by
  have short := barText_short last few ticks
  obtain ⟨text, made, holding⟩ := @statusText_holding fuel lvl tick froot unset (by omega)
  obtain ⟨words, found, reads⟩ := strend_spec holding.words.stored holding.words.clean
    (show (barText lvl tick froot).length < fuel by omega)
  rw [showStatus, made] at shown
  simp only [Option.bind_eq_bind, Option.bind_some, found, Option.pure_def,
    Option.some.injEq] at shown
  subst shown
  have input : (List.range (0 + (barText lvl tick froot).length)).map words.memory =
      barText lvl tick froot := by
    rw [Nat.zero_add, reads.memory]
    refine List.ext_getElem (by rw [List.length_map, List.length_range]) fun index _ inside => ?_
    have stored := holding.words.stored index inside.le
    rw [Nat.zero_add] at stored
    rw [List.getElem_map, List.getElem_range, stored, List.getD_eq_getElem?_getD,
      List.getElem?_eq_getElem inside]
    rfl
  exact congrArg (fun text => strbuff font text lvl drawbuf) input

end Text

namespace Session

variable {blocks : Blocks} {setup : StatusSetup} {session next : Session}

/-- The time is that of the session, and the fruits are those left in the maze. -/
structure Barred (setup : StatusSetup) (session : Session) : Prop where
  few : session.play.game.maze.nFruits ≤ 6
  bar : session.myTime < 192000 → ∀ y < heightPix, ∀ x < widthPix,
    session.video.memory.memory (x % 4, 80 * y + x / 4) = barPicture setup.font
      (barText setup.level session.myTime session.play.game.maze.nFruits.toNat) setup.level (y, x)

theorem showStatus_barred (last : setup.level ≤ 10) (enough : 64 ≤ setup.fuel)
    (few : session.play.game.maze.nFruits ≤ 6) (shown : session.showStatus setup = some next) :
    Barred setup next := by
  rw [Session.showStatus] at shown
  obtain ⟨status, bar, rfl⟩ := Option.map_eq_some_iff.1 shown
  refine ⟨few, fun early y row x column => ?_⟩
  dsimp only at early ⊢
  have fruits : session.play.game.maze.nFruits.toNat ≤ 99 := by omega
  have ticks : session.myTime < 2 ^ 31 := lt_trans early (by decide)
  have short := barText_short last fruits ticks
  have ascii := barText_ascii setup.level session.myTime session.play.game.maze.nFruits.toNat
  have drawn := @strbuff_shows setup.font _ setup.level (le_trans short (by decide)) ascii
    session.drawbuf
  rw [showStatus_displays bar row column, showStatus_text last fruits ticks enough bar]
  exact drawn _ ⟨Int.natCast_nonneg y, Int.ofNat_lt.2 row, Int.natCast_nonneg x,
    Int.ofNat_lt.2 column⟩

/-- The ticks of a frame add no fruit. -/
theorem ticks_nFruits (requests : List Request) (session : Session) :
    (session.ticks blocks requests).play.game.maze.nFruits ≤
      session.play.game.maze.nFruits := by
  induction requests generalizing session with
  | nil => exact le_rfl
  | cons request rest ih =>
      rw [ticks]
      cases ticked : session.play.tick blocks request with
      | error stop => exact le_rfl
      | ok play =>
          have fewer := Play.tick_nFruits blocks ticked
          dsimp only
          split_ifs
          · exact fewer
          · exact (ih _).trans fewer

theorem Barred.frame {interrupt : Interrupt} (barred : Barred setup session)
    (last : setup.level ≤ 10) (enough : 64 ≤ setup.fuel)
    (framed : session.frame blocks setup interrupt = .ok next) : Barred setup next := by
  rw [Session.frame] at framed
  split_ifs at framed
  dsimp only at framed
  split at framed
  next => cases framed
  next result shown =>
    cases framed
    refine showStatus_barred last enough ?_ shown
    have fewer := @ticks_nFruits blocks interrupt.requests
      { session with myTime := session.myTime + interrupt.data / 256 }
    rw [Session.redraw]
    split_ifs <;> exact fewer.trans barred.few

end Session

/-- In every state between two frames of a level, for the first 100 minutes, the status bar shows
the level, the number of fruits that are left and the time. -/
theorem statusBar_follows {blocks : Blocks} {setup : StatusSetup} {fuel : Nat}
    {random : Nat → Nat} {before game : Game} {session first last : Session}
    {interrupts : List Interrupt} (lowest : 1 ≤ setup.level) (highest : setup.level ≤ 10)
    (enough : 64 ≤ setup.fuel)
    (ready : prepareMazeLevel blocks fuel random setup.level before = some (0, game))
    (started : Session.start blocks setup game session = some first)
    (reached : run (Session.frame blocks setup) first interrupts = .ok last)
    (early : last.myTime < 192000) :
    ∀ y < heightPix, ∀ x < widthPix,
      last.video.memory.memory (x % 4, 80 * y + x / 4) =
        if Lit setup.font (barText setup.level last.myTime last.play.game.maze.nFruits.toNat) y x
        then 0x0F else UInt8.ofNat (setup.level - 1) := by
  have initial : Session.Barred setup first := by
    rw [Session.start] at started
    refine Session.showStatus_barred highest enough ?_ started
    dsimp only [Play.start, Game.drawBlock, Game.drawPlayer]
    have eaten := Game.unveilAt_nFruits blocks
      { game with playX := blockXDim, playY := blockYDim } blockXDim blockYDim
    have few : game.maze.nFruits ≤ 6 := prepared_nFruits ready
    exact eaten.trans few
  have barred : Session.Barred setup last :=
    run_invariant (Session.Barred setup)
      (fun _ _ _ barred _ framed => barred.frame highest enough framed) initial
      (along_true _ first interrupts) reached
  intro y row x column
  rw [barred.bar early y row x column, barPicture, off_eq lowest highest]
  rfl

/-- A pixel of the first letter after three ticks. -/
theorem statusBar_follows_frames : ∃ game first last,
    prepareMazeLevel maskedBlocks 200 snake 1 newGame = some (0, game) ∧
      Session.start maskedBlocks statusSetup game (newSession game) = some first ∧
        run (Session.frame maskedBlocks statusSetup) first frames = .ok last ∧
          last.myTime = 3 ∧ last.video.memory.memory (52 % 4, 80 * 1 + 52 / 4) = 0x0F := by
  have finishes : ((prepareMazeLevel maskedBlocks 200 snake 1 newGame).map fun ready =>
      ready.1 = 0 && ((Session.start maskedBlocks statusSetup ready.2 (newSession ready.2)).map
        fun first => runCheck (Session.frame maskedBlocks statusSetup) first frames
          fun last => last.myTime = 3 ∧ Lit statusSetup.font (barText statusSetup.level
            last.myTime last.play.game.maze.nFruits.toNat) 1 52) = some true) = some true := by
    decide +kernel
  obtain ⟨⟨result, game⟩, ready, passed⟩ := Option.map_eq_some_iff.1 finishes
  rw [Bool.and_eq_true] at passed
  obtain rfl : result = 0 := of_decide_eq_true passed.1
  obtain ⟨first, started, rest⟩ := Option.map_eq_some_iff.1 (of_decide_eq_true passed.2)
  obtain ⟨last, reached, checked⟩ := runCheck_sound rest
  obtain ⟨time, lit⟩ := of_decide_eq_true checked
  have early : last.myTime < 192000 := by
    rw [time]
    decide
  refine ⟨game, first, last, ready, started, reached, time, ?_⟩
  refine (@statusBar_follows maskedBlocks statusSetup 200 snake newGame game (newSession game) first
    last frames (by decide) (by decide) (by decide) ready started reached early 1 (by decide) 52
    (by decide)).trans ?_
  exact if_pos lit

end ComputerSystems.Mp2
