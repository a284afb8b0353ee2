import ComputerSystems.Construction.Mp2.Threads
import ComputerSystems.Proof.Mp2.MonitorShows

namespace ComputerSystems.Mp2.Threads

open Library Monitor

section
variable {blocks : Blocks} {setup : Nat → StatusSetup} {shared after : Shared} {input : Input}
variable {action : Action}

theorem rtc_leads {here there : RtcLocal}
    (coded : rtcCode blocks setup here shared input = some (action, there, after)) :
    action.leads (inside .rtc here) (inside .rtc there) := by
  obtain ⟨place, level, ticks, session⟩ := here
  unfold rtcCode at coded
  cases place with
  | prepare =>
      obtain ⟨prepared, _, same⟩ := Option.map_eq_some_iff.1 coded
      cases same
      dsimp only [RtcLocal.goto]
      split_ifs <;> rfl
  | begin game =>
      obtain ⟨next, _, same⟩ := Option.map_eq_some_iff.1 coded
      cases same
      rfl
  | draw =>
      obtain ⟨next, _, same⟩ := Option.map_eq_some_iff.1 coded
      cases same
      rfl
  | done => cases coded
  | _ =>
      dsimp only at coded
      try split_ifs at coded
      all_goals cases coded
      all_goals first | rfl | exact ⟨rfl, rfl⟩

theorem keyboard_leads {here there : KeyboardLocal}
    (coded : keyboardCode here shared input = some (action, there, after)) :
    action.leads (inside .keyboard here) (inside .keyboard there) := by
  obtain ⟨place, state⟩ := here
  unfold keyboardCode at coded
  cases place with
  | done => cases coded
  | head =>
      cases coded
      dsimp only
      split_ifs
      · rfl
      · rfl
  | _ =>
      dsimp only at coded
      try split_ifs at coded
      all_goals cases coded
      all_goals first | rfl | exact ⟨rfl, rfl⟩

theorem tux_leads {here there : TuxLocal}
    (coded : tuxCode here shared = some (action, there, after)) :
    action.leads (inside .tux here) (inside .tux there) := by
  unfold tuxCode at coded
  cases here with
  | done => cases coded
  | _ =>
      dsimp only at coded
      try split_ifs at coded
      all_goals cases coded
      all_goals first | rfl | exact ⟨rfl, rfl⟩

/-- Each thread locks before it is inside, and unlocks or waits after that. -/
theorem disciplined (blocks : Blocks) (setup : Nat → StatusSetup) :
    Disciplined (code blocks setup) inside := by
  intro thread here shared input action there after coded
  cases thread with
  | rtc => exact rtc_leads coded
  | keyboard => exact keyboard_leads coded
  | tux => exact tux_leads coded

/-- The keyboard and the controller ask for directions under the lock, and never take back a
quit. -/
theorem keyboard_shared {here there : KeyboardLocal}
    (coded : keyboardCode here shared input = some (action, there, after)) :
    (inside .keyboard here = false → after.nextDir = shared.nextDir) ∧
      (shared.quitFlag = true → after.quitFlag = true) := by
  obtain ⟨place, state⟩ := here
  unfold keyboardCode at coded
  cases place with
  | done => cases coded
  | setKey key =>
      cases coded
      exact ⟨nofun, id⟩
  | getc =>
      dsimp only at coded
      split_ifs at coded
      all_goals cases coded
      all_goals first | exact ⟨fun _ => rfl, fun _ => rfl⟩ | exact ⟨fun _ => rfl, id⟩
  | _ =>
      cases coded
      exact ⟨fun _ => rfl, id⟩

theorem tux_shared {here there : TuxLocal}
    (coded : tuxCode here shared = some (action, there, after)) :
    (inside .tux here = false → after.nextDir = shared.nextDir) ∧
      after.quitFlag = shared.quitFlag := by
  unfold tuxCode at coded
  cases here with
  | done => cases coded
  | set dir =>
      cases coded
      exact ⟨nofun, rfl⟩
  | test =>
      dsimp only at coded
      split_ifs at coded
      all_goals cases coded
      all_goals exact ⟨fun _ => rfl, rfl⟩
  | _ =>
      cases coded
      exact ⟨fun _ => rfl, rfl⟩

end

/-- The requests at whose ticks the inner loop gets before the level is won. -/
def used (blocks : Blocks) : List Request → Session → List Request
  | [], _ => []
  | request :: rest, session =>
      match session.play.tick blocks request with
      | .error _ => []
      | .ok play =>
          if play.gotoNextLevel then [request]
          else request :: used blocks rest { session with
            play := play
            needRedraw := session.needRedraw || play.dir ≠ .stop }

/-- One thread alone plays the levels in turn, and hears the clock and a direction for each tick. -/
inductive Plays (blocks : Blocks) (setup : Nat → StatusSetup) :
    Nat → Session → List Entry → Prop where
  | begin (session : Session) : Plays blocks setup 0 session []
  | level {level : Nat} {session next : Session} {log : List Entry} {fuel : Nat}
      {random : Nat → Nat} {game : Game} (played : Plays blocks setup level session log)
      (ended : level = 0 ∨ session.play.gotoNextLevel = true)
      (prepared : prepareMazeLevel blocks fuel random (level + 1 : Nat) session.play.game =
        some (0, game))
      (started : Session.start blocks (setup (level + 1)) game session = some next) :
      Plays blocks setup (level + 1) next log
  | frame {level : Nat} {session next : Session} {log : List Entry} {interrupt : Interrupt}
      (played : Plays blocks setup level session log)
      (framed : session.frame blocks (setup level) interrupt = .ok next) :
      Plays blocks setup level next (log ++ .read interrupt.data ::
        (used blocks interrupt.requests
          { session with myTime := session.myTime + interrupt.data / 256 }).map
            fun request => .ask request.nextDir)

section
variable (blocks : Blocks)

/-- The game when the directions have been decided. -/
def ready (before : Play) (request : Request) : Play :=
  let turned := before.turnBack request.nextDir
  if turned.moveCnt = 0 then turned.newSquare blocks request else turned

/-- Where a tick stands that found the game and the direction when it took the lock. -/
inductive Midway (dir : Dir) (before : Play) : RtcPlace → Play → Prop where
  | compare : Midway dir before .compare before
  | opposite (other : dir ≠ before.dir) : Midway dir before .opposite before
  | turn (other : dir ≠ before.dir) (back : before.dir.isOpposite dir = true) :
      Midway dir before .turn { before with moveCnt := turnedMoves before }
  | square : Midway dir before .square (before.turnBack dir)
  | tryTurn (behind : Bool) (arrived : (before.turnBack dir).moveCnt = 0)
      (lost : ((before.turnBack dir).game.unveilAroundPlayer blocks).1 = false) :
      Midway dir before
        (.tryTurn (findOpenDirections ((before.turnBack dir).game.unveilAroundPlayer blocks).2.maze
          ((before.turnBack dir).game.playX / blockXDim : Nat)
          ((before.turnBack dir).game.playY / blockYDim : Nat) behind))
        { before.turnBack dir with
          game := ((before.turnBack dir).game.unveilAroundPlayer blocks).2 }
  | assign (behind : Bool) {isOpen : Dir → Bool}
      (arrived : (before.turnBack dir).moveCnt = 0)
      (lost : ((before.turnBack dir).game.unveilAroundPlayer blocks).1 = false)
      (found : isOpen =
        findOpenDirections ((before.turnBack dir).game.unveilAroundPlayer blocks).2.maze
          ((before.turnBack dir).game.playX / blockXDim : Nat)
          ((before.turnBack dir).game.playY / blockYDim : Nat) behind)
      (free : isOpen dir = true) :
      Midway dir before (.assign isOpen)
        { before.turnBack dir with
          game := ((before.turnBack dir).game.unveilAroundPlayer blocks).2 }
  | settle (behind : Bool) {isOpen : Dir → Bool} {play : Play}
      (decides : ready blocks before ⟨dir, behind⟩ = settled isOpen play)
      (lost : play.gotoNextLevel = before.gotoNextLevel) :
      Midway dir before (.settle isOpen) play
  | unlockDir (behind : Bool)
      (lost : (ready blocks before ⟨dir, behind⟩).gotoNextLevel = before.gotoNextLevel) :
      Midway dir before .unlockDir (ready blocks before ⟨dir, behind⟩)
  | unlockWon (arrived : (before.turnBack dir).moveCnt = 0)
      (won : ((before.turnBack dir).game.unveilAroundPlayer blocks).1 = true) :
      Midway dir before .unlockWon { before.turnBack dir with
        game := ((before.turnBack dir).game.unveilAroundPlayer blocks).2 }

end

section
variable {blocks : Blocks} {setup : Nat → StatusSetup} {shared after : Shared} {input : Input}
variable {action : Action} {here there : RtcLocal} {before : Play}

theorem settled_gotoNextLevel (isOpen : Dir → Bool) (play : Play) :
    (settled isOpen play).gotoNextLevel = play.gotoNextLevel := by
  unfold settled
  split_ifs <;> rfl

theorem turnBack_gotoNextLevel (dir : Dir) (play : Play) :
    (play.turnBack dir).gotoNextLevel = play.gotoNextLevel := by
  unfold Play.turnBack
  split_ifs <;> rfl

/-- Where the level is not won, the directions are found and settled. -/
theorem newSquare_settled {play : Play} {request : Request}
    (lost : (play.game.unveilAroundPlayer blocks).1 = false) :
    play.newSquare blocks request =
      settled (findOpenDirections (play.game.unveilAroundPlayer blocks).2.maze
          (play.game.playX / blockXDim : Nat) (play.game.playY / blockYDim : Nat) request.behind)
        { play with
          game := (play.game.unveilAroundPlayer blocks).2
          dir := if findOpenDirections (play.game.unveilAroundPlayer blocks).2.maze
              (play.game.playX / blockXDim : Nat) (play.game.playY / blockYDim : Nat)
              request.behind request.nextDir then request.nextDir else play.dir } := by
  rw [Play.newSquare]
  dsimp only
  rw [if_neg (by rw [lost]; decide)]
  rfl

theorem ready_arrived {dir : Dir} (behind : Bool) (arrived : (before.turnBack dir).moveCnt = 0) :
    ready blocks before ⟨dir, behind⟩ = (before.turnBack dir).newSquare blocks ⟨dir, behind⟩ :=
  if_pos arrived

theorem tick_ready {request : Request} (lost : before.gotoNextLevel = false) :
    before.tick blocks request =
      if (ready blocks before request).gotoNextLevel then .ok (ready blocks before request)
      else .ok ((ready blocks before request).move blocks) := by
  rw [Play.tick, if_neg (by rw [lost]; decide)]
  rfl

/-- The reads of a tick under the lock agree, so it goes on as one that has read once. -/
theorem midway_step (midway : Midway blocks shared.nextDir before here.place here.session.play)
    (coded : rtcCode blocks setup here shared input = some (action, there, after)) :
    after = shared ∧ there.level = here.level ∧ there.ticks = here.ticks ∧
      there.session = { here.session with play := there.session.play } ∧
      (Midway blocks shared.nextDir before there.place there.session.play ∨
      (∃ behind, there.place = .move ∧
        there.session.play = ready blocks before ⟨shared.nextDir, behind⟩ ∧
          there.session.play.gotoNextLevel = before.gotoNextLevel) ∨
      (there.place = .draw ∧ there.session.play.gotoNextLevel = true ∧
        (before.gotoNextLevel = false → before.tick blocks ⟨shared.nextDir, false⟩ =
          .ok there.session.play))) := by
  obtain ⟨place, level, ticks, session⟩ := here
  obtain ⟨play, needRedraw, video, drawbuf, planes, myTime⟩ := session
  dsimp only at midway
  unfold rtcCode at coded
  cases midway with
  | compare =>
      cases coded
      refine ⟨rfl, rfl, rfl, rfl, .inl ?_⟩
      dsimp only [RtcLocal.goto]
      split_ifs with other
      · exact .opposite other
      · have kept : before.turnBack shared.nextDir = before := if_neg fun both => other both.1
        have stays : Midway blocks shared.nextDir before .square
            (before.turnBack shared.nextDir) := .square
        rw [kept] at stays
        exact stays
  | opposite other =>
      dsimp only at coded
      split_ifs at coded with back
      · cases coded
        exact ⟨rfl, rfl, rfl, rfl, .inl (.turn other back)⟩
      · cases coded
        have kept : before.turnBack shared.nextDir = before := if_neg fun both => back both.2
        have stays : Midway blocks shared.nextDir before .square
            (before.turnBack shared.nextDir) := .square
        rw [kept] at stays
        exact ⟨rfl, rfl, rfl, rfl, .inl stays⟩
  | turn other back =>
      cases coded
      have turned : before.turnBack shared.nextDir =
          { before with moveCnt := turnedMoves before, dir := shared.nextDir } :=
        if_pos ⟨other, back⟩
      exact ⟨rfl, rfl, rfl, rfl, .inl (turned ▸ .square)⟩
  | square =>
      dsimp only at coded
      split_ifs at coded with arrived won
      · cases coded
        exact ⟨rfl, rfl, rfl, rfl, .inl (.unlockWon arrived won)⟩
      · cases coded
        exact ⟨rfl, rfl, rfl, rfl, .inl
          (.tryTurn input.behind arrived (Bool.eq_false_of_not_eq_true won))⟩
      · cases coded
        refine ⟨rfl, rfl, rfl, rfl, .inl ?_⟩
        have same : ready blocks before ⟨shared.nextDir, false⟩ = before.turnBack shared.nextDir :=
          if_neg arrived
        have stays : Midway blocks shared.nextDir before .unlockDir
            (ready blocks before ⟨shared.nextDir, false⟩) :=
          .unlockDir false (by rw [same, turnBack_gotoNextLevel])
        rw [same] at stays
        exact stays
  | tryTurn behind arrived lost =>
      cases coded
      refine ⟨rfl, rfl, rfl, rfl, .inl ?_⟩
      dsimp only [RtcLocal.goto]
      split_ifs with free
      · exact .assign behind arrived lost rfl free
      · refine .settle behind ?_ (turnBack_gotoNextLevel _ _)
        rw [ready_arrived behind arrived, newSquare_settled lost]
        dsimp only
        rw [if_neg free]
  | assign behind arrived lost found free =>
      cases coded
      refine ⟨rfl, rfl, rfl, rfl, .inl (.settle behind ?_ (turnBack_gotoNextLevel _ _))⟩
      rw [ready_arrived behind arrived, newSquare_settled lost, ← found]
      dsimp only
      rw [if_pos free]
      rfl
  | settle behind decides lost =>
      cases coded
      refine ⟨rfl, rfl, rfl, rfl, .inl ?_⟩
      have stays : Midway blocks shared.nextDir before .unlockDir
          (ready blocks before ⟨shared.nextDir, behind⟩) :=
        .unlockDir behind (by rw [decides, settled_gotoNextLevel, lost])
      rw [decides] at stays
      exact stays
  | unlockDir behind lost =>
      cases coded
      exact ⟨rfl, rfl, rfl, rfl, .inr (.inl ⟨behind, rfl, rfl, lost⟩)⟩
  | unlockWon arrived won =>
      cases coded
      refine ⟨rfl, rfl, rfl, rfl, .inr (.inr ⟨rfl, rfl, fun lost => ?_⟩)⟩
      have last : ready blocks before ⟨shared.nextDir, false⟩ =
          { before.turnBack shared.nextDir with
            game := ((before.turnBack shared.nextDir).game.unveilAroundPlayer blocks).2
            gotoNextLevel := true } := by
        rw [ready_arrived false arrived, Play.newSquare]
        exact if_pos won
      rw [tick_ready lost, last]
      rfl

theorem Midway.within {dir : Dir} {place : RtcPlace} {play : Play}
    (midway : Midway blocks dir before place play) (level ticks : Nat) (session : Session) :
    inside .rtc ⟨place, level, ticks, session⟩ = true := by
  cases midway <;> rfl

end

section
variable (blocks : Blocks) (setup : Nat → StatusSetup)

/-- Some ticks of a frame have been played, and others remain. -/
def InFrame (level ticks : Nat) (now : Session) (log : List Entry) : Prop :=
  ∃ (begun : Session) (earlier : List Entry) (data : Nat) (past : List Request),
    Plays blocks setup level begun earlier ∧ begun.play.gotoNextLevel = false ∧
      now.play.gotoNextLevel = false ∧
      log = earlier ++ .read data :: past.map (fun request => .ask request.nextDir) ∧
      past.length + ticks = min (data / 256) 8 ∧
      ∀ rest : List Request,
        Session.ticks blocks (past ++ rest)
            { begun with myTime := begun.myTime + data / 256 } =
          Session.ticks blocks rest now ∧
        used blocks (past ++ rest) { begun with myTime := begun.myTime + data / 256 } =
          past ++ used blocks rest now

/-- The ticks of a frame are over. -/
def Ticked (level : Nat) (now : Session) (log : List Entry) : Prop :=
  ∃ (begun : Session) (earlier : List Entry) (interrupt : Interrupt),
    Plays blocks setup level begun earlier ∧ begun.play.gotoNextLevel = false ∧
      log = earlier ++ .read interrupt.data :: (used blocks interrupt.requests
        { begun with myTime := begun.myTime + interrupt.data / 256 }).map
          (fun request => .ask request.nextDir) ∧
      Session.ticks blocks interrupt.requests
        { begun with myTime := begun.myTime + interrupt.data / 256 } = now

end

section
variable {blocks : Blocks} {setup : Nat → StatusSetup} {level ticks : Nat} {now next : Session}
variable {log : List Entry} {dir : Dir} {play : Play}

theorem InFrame.lost (frame : InFrame blocks setup level ticks now log) :
    now.play.gotoNextLevel = false := by
  obtain ⟨_, _, _, _, _, _, lost, _⟩ := frame
  exact lost

theorem InFrame.begin {begun : Session} (played : Plays blocks setup level begun log)
    (lost : begun.play.gotoNextLevel = false) (data : Nat) :
    InFrame blocks setup level (min (data / 256) 8)
      { begun with myTime := begun.myTime + data / 256 } (log ++ [.read data]) :=
  ⟨begun, log, data, [], played, lost, lost, rfl, Nat.zero_add _, fun _ => ⟨rfl, rfl⟩⟩

/-- A tick that does not win the level. -/
theorem InFrame.tick (frame : InFrame blocks setup level (ticks + 1) now log) {request : Request}
    (ticked : now.play.tick blocks request = .ok play) (lost : play.gotoNextLevel = false) :
    InFrame blocks setup level ticks
      { now with
        play := play
        needRedraw := now.needRedraw || play.dir ≠ .stop }
      (log ++ [.ask request.nextDir]) := by
  obtain ⟨begun, earlier, data, past, played, before, open_, same, count, agree⟩ := frame
  refine ⟨begun, earlier, data, past ++ [request], played, before, lost, ?_, ?_, fun rest => ?_⟩
  · rw [same, List.append_assoc, List.cons_append, List.map_append]
    rfl
  · rw [List.length_append, List.length_singleton, ← count]
    omega
  · obtain ⟨first, second⟩ := agree (request :: rest)
    rw [List.append_assoc, List.singleton_append, first, second, Session.ticks, used, ticked,
      List.append_assoc]
    dsimp only
    rw [if_neg (by rw [lost]; decide), if_neg (by rw [lost]; decide)]
    exact ⟨rfl, rfl⟩

/-- No tick remains. -/
theorem InFrame.ends (frame : InFrame blocks setup level 0 now log) :
    Ticked blocks setup level now log := by
  obtain ⟨begun, earlier, data, past, played, before, _, same, count, agree⟩ := frame
  obtain ⟨first, second⟩ := agree []
  rw [List.append_nil] at first second
  refine ⟨begun, earlier, ⟨data, past, count⟩, played, before, ?_, first⟩
  rw [second, same]
  exact congrArg (fun asked => earlier ++ .read data :: List.map _ asked)
    (List.append_nil past).symm

/-- A tick that wins the level is the last one of its frame. -/
theorem InFrame.wins (frame : InFrame blocks setup level (ticks + 1) now log) {request : Request}
    (ticked : now.play.tick blocks request = .ok play) (won : play.gotoNextLevel = true) :
    Ticked blocks setup level { now with play := play } (log ++ [.ask request.nextDir]) := by
  obtain ⟨begun, earlier, data, past, played, before, _, same, count, agree⟩ := frame
  obtain ⟨first, second⟩ := agree (request :: List.replicate ticks request)
  have limited : (past ++ request :: List.replicate ticks request).length =
      min (data / 256) 8 := by
    rw [List.length_append, List.length_cons, List.length_replicate, count]
  refine ⟨begun, earlier, ⟨data, _, limited⟩, played, before, ?_, ?_⟩
  · dsimp only
    rw [second, used, ticked]
    dsimp only
    rw [if_pos won, same, List.append_assoc, List.cons_append, List.map_append]
    rfl
  · dsimp only
    rw [first, Session.ticks, ticked]
    exact if_pos won

/-- The screen is shown after the ticks. -/
theorem Ticked.shown (ticked : Ticked blocks setup level now log)
    (shown : Session.showStatus (setup level) (now.redraw blocks) = some next) :
    Plays blocks setup level next log := by
  obtain ⟨begun, earlier, interrupt, played, before, same, reached⟩ := ticked
  rw [same]
  refine .frame played ?_
  rw [Session.frame, if_neg (by rw [before]; decide)]
  dsimp only
  rw [reached, shown]

end

/-- The places of a tick before its directions are read. -/
def RtcPlace.polling : RtcPlace → Bool
  | .poll | .testButtons | .lockPressed _ | .setPressed _ | .unlockPressed | .lockSignal
  | .testSignal | .unlockSignal | .lockDir => true
  | _ => false

section
variable (blocks : Blocks) (setup : Nat → StatusSetup)

/-- Where `rtc_thread` stands in a game that one thread alone plays. -/
inductive Follows (shared : Shared) : List Entry → RtcLocal → Prop where
  | levels {level ticks myTime : Nat} {session : Session} {log : List Entry}
      (played : Plays blocks setup level session log)
      (ended : level = 0 ∨ session.play.gotoNextLevel = true ∨ shared.quitFlag = true) :
      Follows shared log ⟨.levels, level + 1, ticks, { session with myTime := myTime }⟩
  | prepare {level ticks myTime : Nat} {session : Session} {log : List Entry}
      (played : Plays blocks setup level session log)
      (ended : level = 0 ∨ session.play.gotoNextLevel = true) :
      Follows shared log ⟨.prepare, level + 1, ticks, { session with myTime := myTime }⟩
  | enter {level ticks myTime fuel : Nat} {random : Nat → Nat} {game : Game} {session : Session}
      {log : List Entry} {place : RtcPlace} (played : Plays blocks setup level session log)
      (ended : level = 0 ∨ session.play.gotoNextLevel = true)
      (prepared : prepareMazeLevel blocks fuel random (level + 1 : Nat) session.play.game =
        some (0, game))
      (entering : place = .stopDir game ∨ place = .begin game) :
      Follows shared log ⟨place, level + 1, ticks, { session with myTime := myTime }⟩
  | between {level ticks : Nat} {session : Session} {log : List Entry} {place : RtcPlace}
      (played : Plays blocks setup level session log)
      (between : place = .first ∨ place = .head ∨
        place = .read ∧ session.play.gotoNextLevel = false ∨
        place = .left ∧ (session.play.gotoNextLevel = true ∨ shared.quitFlag = true)) :
      Follows shared log ⟨place, level, ticks, session⟩
  | ticks {level ticks : Nat} {session : Session} {log : List Entry}
      (frame : InFrame blocks setup level ticks session log) :
      Follows shared log ⟨.ticks, level, ticks, session⟩
  | polling {level ticks : Nat} {session : Session} {log : List Entry} {place : RtcPlace}
      (frame : InFrame blocks setup level (ticks + 1) session log)
      (polling : place.polling = true) :
      Follows shared log ⟨place, level, ticks, session⟩
  | midway {level ticks : Nat} {session : Session} {play : Play} {log : List Entry}
      {place : RtcPlace} (frame : InFrame blocks setup level (ticks + 1) session log)
      (midway : Midway blocks shared.nextDir session.play place play) :
      Follows shared (log ++ [.ask shared.nextDir])
        ⟨place, level, ticks, { session with play := play }⟩
  | move {level ticks : Nat} {session : Session} {log : List Entry} (request : Request)
      (frame : InFrame blocks setup level (ticks + 1) session log)
      (lost : (ready blocks session.play request).gotoNextLevel = false) :
      Follows shared (log ++ [.ask request.nextDir])
        ⟨.move, level, ticks, { session with play := ready blocks session.play request }⟩
  | draw {level ticks : Nat} {session : Session} {log : List Entry}
      (ticked : Ticked blocks setup level session log) :
      Follows shared log ⟨.draw, level, ticks, session⟩
  | finish {level ticks myTime : Nat} {session : Session} {log : List Entry} {place : RtcPlace}
      (played : Plays blocks setup level session log)
      (finishing : place = .finish ∨ place = .done) :
      Follows shared log ⟨place, level + 1, ticks, { session with myTime := myTime }⟩

end

section
variable {blocks : Blocks} {setup : Nat → StatusSetup} {shared after : Shared} {input : Input}
variable {action : Action} {here there : RtcLocal} {log : List Entry}

/-- What the other threads do between two steps of `rtc_thread` changes nothing for it. -/
theorem Follows.stays (follows : Follows blocks setup shared log here)
    (dir : inside .rtc here = true → after.nextDir = shared.nextDir)
    (quit : shared.quitFlag = true → after.quitFlag = true) :
    Follows blocks setup after log here := by
  cases follows with
  | levels played ended => exact .levels played (ended.imp_right (Or.imp_right quit))
  | prepare played ended => exact .prepare played ended
  | enter played ended prepared entering => exact .enter played ended prepared entering
  | between played between =>
      exact .between played (between.imp_right (Or.imp_right (Or.imp_right
        (And.imp_right (Or.imp_right quit)))))
  | ticks frame => exact .ticks frame
  | polling frame polling => exact .polling frame polling
  | midway frame midway =>
      rw [← dir (midway.within _ _ _)] at midway ⊢
      exact .midway frame midway
  | move request frame lost => exact .move request frame lost
  | draw ticked => exact .draw ticked
  | finish played finishing => exact .finish played finishing

theorem move_dir (blocks : Blocks) (play : Play) :
    (play.move blocks).dir = play.dir ∧
      (play.move blocks).gotoNextLevel = play.gotoNextLevel := by
  rw [Play.move]
  split_ifs
  · exact ⟨rfl, rfl⟩
  · exact ⟨rfl, rfl⟩

/-- A step of `rtc_thread` plays on with what it hears. -/
theorem Follows.step (follows : Follows blocks setup shared log here)
    (coded : rtcCode blocks setup here shared input = some (action, there, after)) :
    Follows blocks setup after (log ++ here.noted shared input) there := by
  unfold rtcCode at coded
  cases follows with
  | levels played ended =>
      dsimp only at coded
      rw [RtcLocal.noted, List.append_nil]
      split_ifs at coded with goes
      · cases coded
        refine .prepare played (ended.imp_right fun wins => wins.resolve_right ?_)
        rw [goes.2]
        decide
      · cases coded
        exact .finish played (.inl rfl)
  | @prepare level ticks myTime session log played ended =>
      obtain ⟨⟨result, game⟩, prepared, same⟩ := Option.map_eq_some_iff.1 coded
      cases same
      rw [RtcLocal.noted, List.append_nil]
      dsimp only [RtcLocal.goto]
      split_ifs with failed
      · exact .finish played (.inl rfl)
      · obtain rfl := not_not.1 failed
        exact .enter played ended prepared (.inl rfl)
  | enter played ended prepared entering =>
      obtain rfl | rfl := entering
      · cases coded
        rw [RtcLocal.noted, List.append_nil]
        exact .enter played ended prepared (.inr rfl)
      · obtain ⟨next, started, same⟩ := Option.map_eq_some_iff.1 coded
        cases same
        rw [RtcLocal.noted, List.append_nil]
        exact .between (.level played ended prepared started) (.inl rfl)
  | between played between =>
      obtain rfl | rfl | ⟨rfl, lost⟩ | ⟨rfl, ended⟩ := between
      · cases coded
        rw [RtcLocal.noted, List.append_nil]
        exact .between played (.inr (.inl rfl))
      · dsimp only at coded
        rw [RtcLocal.noted, List.append_nil]
        split_ifs at coded with goes
        · cases coded
          exact .between played (.inr (.inr (.inl ⟨rfl, goes.2⟩)))
        · cases coded
          refine .between played (.inr (.inr (.inr ⟨rfl, ?_⟩)))
          obtain quit | wins := not_and_or.1 goes
          · exact .inr (Bool.eq_true_of_not_eq_false quit)
          · exact .inl (Bool.eq_true_of_not_eq_false wins)
      · cases coded
        exact .ticks (.begin played lost input.data)
      · cases coded
        rw [RtcLocal.noted, List.append_nil]
        exact .levels played (.inr ended)
  | @ticks level ticks session log frame =>
      dsimp only at coded
      rw [RtcLocal.noted, List.append_nil]
      split_ifs at coded with gone
      · cases coded
        subst gone
        exact .draw frame.ends
      · cases coded
        refine .polling ?_ rfl
        rw [Nat.sub_add_cancel (Nat.pos_of_ne_zero gone)]
        exact frame
  | @polling _ _ _ _ place frame polling =>
      cases place with
      | lockDir =>
          cases coded
          exact .midway frame .compare
      | poll | testButtons | lockPressed | setPressed | unlockPressed | lockSignal | testSignal
      | unlockSignal =>
          cases coded
          rw [RtcLocal.noted, List.append_nil]
          exact .polling frame rfl
      | _ => cases polling
  | @midway level ticks session play log place frame midway =>
      have quiet : RtcLocal.noted ⟨place, level, ticks, { session with play := play }⟩ shared
          input = [] := by
        cases midway <;> rfl
      obtain ⟨same, level_eq, ticks_eq, session_eq, goes⟩ :=
        @midway_step blocks setup shared after input action
          ⟨place, level, ticks, { session with play := play }⟩ there session.play midway coded
      obtain ⟨there, _, _, next⟩ := there
      dsimp only at level_eq ticks_eq session_eq goes
      subst same level_eq ticks_eq
      rw [quiet, List.append_nil, session_eq]
      obtain midway | ⟨behind, rfl, moved, lost⟩ | ⟨rfl, won, ticked⟩ := goes
      · exact .midway frame midway
      · rw [moved] at lost ⊢
        exact .move ⟨after.nextDir, behind⟩ frame (lost.trans frame.lost)
      · exact .draw (frame.wins (ticked frame.lost) won)
  | @move level ticks session log request frame lost =>
      cases coded
      rw [RtcLocal.noted, List.append_nil]
      obtain ⟨dir, same⟩ := move_dir blocks (ready blocks session.play request)
      have ticked : session.play.tick blocks request =
          .ok ((ready blocks session.play request).move blocks) :=
        (tick_ready frame.lost).trans (if_neg (by rw [lost]; decide))
      have goes := frame.tick ticked (same.trans lost)
      rw [dir] at goes
      exact .ticks goes
  | draw ticked =>
      obtain ⟨next, shown, same⟩ := Option.map_eq_some_iff.1 coded
      cases same
      rw [RtcLocal.noted, List.append_nil]
      exact .between (ticked.shown shown) (.inr (.inl rfl))
  | finish played finishing =>
      obtain rfl | rfl := finishing
      · cases coded
        rw [RtcLocal.noted, List.append_nil]
        exact .finish played (.inr rfl)
      · cases coded

end

section
variable {blocks : Blocks} {setup : Nat → StatusSetup} {log : List Entry}
variable {state next final : State Thread Local Shared} {action : Action} {input : Input}

/-- The other threads ask for directions under the lock. -/
theorem guards {thread : Thread} (apart : thread ≠ .rtc) :
    Guards (code blocks setup) inside Shared.nextDir thread := by
  intro here shared input action there after coded outside
  cases thread with
  | rtc => exact absurd rfl apart
  | keyboard => exact (keyboard_shared coded).1 outside
  | tux => exact (tux_shared coded).1 outside

/-- No thread takes a quit back. -/
theorem quit_stays {thread : Thread} (apart : thread ≠ .rtc)
    (turn : Turned (code blocks setup) state thread input action next)
    (quit : state.shared.quitFlag = true) : next.shared.quitFlag = true := by
  cases thread with
  | rtc => exact absurd rfl apart
  | keyboard => exact (keyboard_shared turn.coded).2 quit
  | tux => exact (tux_shared turn.coded).2.trans quit

/-- A turn of another thread leaves `rtc_thread` where it is in its game. -/
theorem Follows.other {thread : Thread} (apart : thread ≠ .rtc) (owned : Owned inside state)
    (follows : Follows blocks setup state.shared log (state.locals .rtc))
    (turn : Turned (code blocks setup) state thread input action next) :
    Follows blocks setup next.shared log (next.locals .rtc) := by
  rw [turn.others .rtc (Ne.symm apart)]
  exact follows.stays (fun within => owned.keeps (guards apart) within apart turn)
    (quit_stays apart turn)

/-- Along a run `rtc_thread` stays in a game that one thread alone plays. -/
theorem Follows.run {events : List (Event Thread Input)} (owned : Owned inside state)
    (follows : Follows blocks setup state.shared log (state.locals .rtc))
    (ran : run (Monitor.step (code blocks setup)) state events = .ok final) :
    Follows blocks setup final.shared (log ++ heard blocks setup state events)
      (final.locals .rtc) := by
  induction events generalizing state log with
  | nil =>
      cases ran
      rw [heard, List.append_nil]
      exact follows
  | cons event rest ih =>
      rw [Library.run] at ran
      cases stepped : Monitor.step (code blocks setup) state event with
      | error stop =>
          rw [stepped] at ran
          cases ran
      | ok next =>
          rw [stepped] at ran
          rw [heard, stepped]
          dsimp only
          rw [← List.append_assoc]
          refine ih (owned.step (disciplined blocks setup) stepped) ?_ ran
          cases event with
          | wake thread =>
              cases stepped
              have silent : hears state (.wake thread) = [] := rfl
              rw [silent, List.append_nil]
              exact follows
          | turn thread input =>
              obtain ⟨action, turn⟩ := turned stepped
              cases thread with
              | rtc => exact follows.step turn.coded
              | keyboard => exact (List.append_nil log).symm ▸ follows.other (by decide) owned turn
              | tux => exact (List.append_nil log).symm ▸ follows.other (by decide) owned turn

theorem start_owned (shared : Shared) (session : Session) :
    Owned inside (start shared session) := by
  intro thread
  cases thread <;> exact iff_of_false Bool.false_ne_true (Option.some_ne_none _).symm

/-- Between two frames the game has been played to its end so far. -/
theorem Follows.head {shared : Shared} {here : RtcLocal}
    (follows : Follows blocks setup shared log here) (head : here.place = .head) :
    Plays blocks setup here.level here.session log := by
  cases follows with
  | between played => exact played
  | enter _ _ _ entering =>
      obtain same | same := entering
      · cases head.symm.trans same
      · cases head.symm.trans same
  | polling _ polling =>
      dsimp only at head
      rw [head] at polling
      cases polling
  | midway _ midway =>
      dsimp only at head
      rw [head] at midway
      cases midway
  | finish _ finishing =>
      obtain same | same := finishing
      · cases head.symm.trans same
      · cases head.symm.trans same
  | _ => cases head

/-- However the threads interleave, the levels are played as one thread alone plays them, which
hears the direction at each tick when the lock was taken. -/
theorem threads_play {shared : Shared} {session : Session} {events : List (Event Thread Input)}
    (ran : run (Monitor.step (code blocks setup)) (start shared session) events = .ok final)
    (head : (final.locals .rtc).place = .head) :
    Plays blocks setup (final.locals .rtc).level (final.locals .rtc).session
      (heard blocks setup (start shared session) events) := by
  have begins : Follows blocks setup shared []
      ⟨.levels, 0 + 1, 0, { session with myTime := session.myTime }⟩ :=
    .levels (.begin session) (.inl rfl)
  have follows := begins.run (start_owned shared session) ran
  rw [List.nil_append] at follows
  exact follows.head head

end

def RtcPlace.isHead : RtcPlace → Bool
  | .head => true
  | _ => false

theorem RtcPlace.eq_head {place : RtcPlace} (found : place.isHead = true) : place = .head := by
  cases place <;> first | rfl | cases found

def fresh : Shared := ⟨.stop, 0, false, false, false⟩

def given (key : UInt8) : Input := ⟨256, 0, true, key, 200, snake⟩

/-- An arrow key is typed between the clock and the lock of a tick. -/
def events : List (Event Thread Input) :=
  List.replicate 8 (.turn .rtc (given 0)) ++ List.replicate 3 (.turn .tux (given 0)) ++
    [27, 27, 91, 91, 66, 66, 0, 0, 0].map (fun key => .turn .keyboard (given key)) ++
      List.replicate 19 (.turn .rtc (given 0))

theorem threads_play_events : ∃ final,
    run (Monitor.step (code maskedBlocks fun _ => statusSetup)) (start fresh (newSession newGame))
        events = .ok final ∧
      (final.locals .rtc).session.play.dir = .down ∧
        Plays maskedBlocks (fun _ => statusSetup) 1 (final.locals .rtc).session
          [.read 256, .ask .down] := by
  have finishes : (runCheck (Monitor.step (code maskedBlocks fun _ => statusSetup))
      (start fresh (newSession newGame)) events fun final =>
        (final.locals .rtc).place.isHead && (final.locals .rtc).level = 1 &&
          (final.locals .rtc).session.play.dir = .down) = true := by decide +kernel
  have hears : heard maskedBlocks (fun _ => statusSetup) (start fresh (newSession newGame))
      events = [.read 256, .ask .down] := by decide +kernel
  obtain ⟨final, ran, passed⟩ := runCheck_sound finishes
  rw [Bool.and_eq_true, Bool.and_eq_true] at passed
  obtain ⟨⟨head, level⟩, dir⟩ := passed
  have played := threads_play ran (RtcPlace.eq_head head)
  rw [hears, of_decide_eq_true level] at played
  exact ⟨final, ran, of_decide_eq_true dir, played⟩

end ComputerSystems.Mp2.Threads
