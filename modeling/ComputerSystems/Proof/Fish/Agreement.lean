import ComputerSystems.Proof.Fish.Comparison

namespace ComputerSystems.Fish

open Library Mp1

/-- An operation on both engines. An add has memory for a node of each, and the user's structure of
a find has a location. -/
inductive Operation where
  | add (user : BlinkStruct) (mp1Node fishNode : Nat)
  | remove (arg : BitVec 32)
  | find (pointer : BitVec 32) (location : UInt16)
  | sync (arg : BitVec 32)
  | tasklet

def Operation.mp1 : Operation → Mp1.Event
  | .add user node _ => .ioctl ⟨some node, user, 0, 0, 0⟩ 0 0
  | .remove arg => .ioctl ⟨none, zeroed, 0, 0, 0⟩ arg 1
  | .find pointer location => .ioctl ⟨none, zeroed, 0, location, 0⟩ pointer 2
  | .sync arg => .ioctl ⟨none, zeroed, 0, 0, 0⟩ arg 3
  | .tasklet => .rtcTasklet

def Operation.fish : Operation → Event
  | .add user _ node => .ioctl (.add user node)
  | .remove arg => .ioctl (.remove arg)
  | .find _ location => .ioctl (.find location)
  | .sync arg => .ioctl (.sync arg)
  | .tasklet => .tasklet

structure Engines where
  mp1 : Mp1.System
  fish : System

namespace Engines

def step (engines : Engines) (operation : Operation) : Except Fault Engines :=
  match Mp1.step engines.mp1 operation.mp1 with
  | .error fault => .error fault
  | .ok mp1 =>
      match Fish.step engines.fish operation.fish with
      | .error fault => .error fault
      | .ok fish => .ok ⟨mp1, fish⟩

/-- Both engines start with an empty list. -/
def start (mp1Node fishNode : Nat → BlinkStruct) (video : Nat → UInt8) : Engines :=
  ⟨Mp1.start mp1Node video, Fish.start fishNode video⟩

/-- An add gives a location on the screen, periods that are not empty, and memory that is not in
use. A find gives a structure to read from. -/
def Provided (engines : Engines) : Operation → Prop
  | .add user mp1Node fishNode => user.location.toNat ≤ 1999 ∧ user.onLength ≠ 0 ∧
      user.offLength ≠ 0 ∧ (mp1Node ≠ 0 ∧ mp1Node ∉ engines.mp1.driver.live) ∧ fishNode ≠ 0 ∧
      ∀ nodes, Links engines.fish.engine.link 0 engines.fish.engine.listHead nodes →
        fishNode ∉ nodes
  | .find pointer _ => pointer ≠ 0
  | _ => True

/-- The results, the lists and the video memory of the engines are the same. -/
structure Agree (engines : Engines) : Prop where
  results : engines.mp1.results = engines.fish.results
  lists : ∃ nodes others, Links engines.mp1.driver.link 0 engines.mp1.driver.listHead nodes ∧
    Links engines.fish.engine.link 0 engines.fish.engine.listHead others ∧
    nodes.map (fun node => (engines.mp1.driver.node node).toBlink) =
      others.map fun node => (engines.fish.engine.node node).toBlink
  video : engines.mp1.driver.video = engines.fish.engine.video

/-- A sync is to a structure with one character for both states or from one that is off, and no
tick counts down from more than 32768. -/
def Coincides (engines : Engines) : Operation → Prop
  | .sync arg => ∀ leader follower,
      engines.mp1.driver.Finds ⟨(arg >>> 16).setWidth 16⟩ leader →
      engines.mp1.driver.Finds ⟨arg.setWidth 16⟩ follower →
      leader.status = 0 ∨ follower.onChar = follower.offChar
  | .tasklet => ∀ node, engines.mp1.driver.Lists node →
      (engines.mp1.driver.node node).countdown.toNat ≤ 2 ^ 15
  | _ => True

end Engines

/-- Each engine holds its list. -/
structure Both (engines : Engines) (board : Board) (items : List Listed) : Prop where
  refines : Refines engines.mp1 board
  holds : Holds engines.fish.engine items
  running : ∀ item ∈ board.items, Running item.blink

/-- The abstract forms of the engines are the same up to the memory of the nodes. -/
structure Alike (board : Board) (fish : System) (items : List Listed) : Prop where
  results : board.results = fish.results
  lists : blinks board.items = blinks items
  video : board.screen.video = fish.engine.video

namespace Both

variable {engines : Engines} {board : Board} {items : List Listed}

theorem agree_iff (both : Both engines board items) :
    engines.Agree ↔ Alike board engines.fish items := by
  have spells := both.refines.spells
  have left : (addresses board.items).map (fun node => (engines.mp1.driver.node node).toBlink) =
      blinks board.items := by
    rw [addresses, List.map_map]
    exact List.map_congr_left spells.held
  have right : (addresses items).map (fun node => (engines.fish.engine.node node).toBlink) =
      blinks items := by
    rw [addresses, List.map_map]
    exact List.map_congr_left both.holds.held
  have screen : board.screen.video = engines.mp1.driver.video :=
    congrArg Screen.video both.refines.screen.symm
  constructor
  · rintro ⟨results, ⟨nodes, others, linked, also, same⟩, video⟩
    rw [linked.unique spells.linked, also.unique both.holds.linked, left, right] at same
    exact ⟨both.refines.results.symm.trans results, same, screen.trans video⟩
  · rintro ⟨results, lists, video⟩
    refine ⟨both.refines.results.trans results, ⟨_, _, spells.linked, both.holds.linked, ?_⟩,
      screen.symm.trans video⟩
    rw [left, right, lists]

/-- What a step of both engines leads to. -/
def Leads (engines : Engines) (operation : Operation) : Prop :=
  ∃ next board items, engines.step operation = .ok next ∧ Both next board items ∧
    (engines.Coincides operation ↔ Alike board next.fish items)

theorem step_eq (operation : Operation) {mp1 : Mp1.System} {fish : System}
    (first : Mp1.step engines.mp1 operation.mp1 = .ok mp1)
    (second : Fish.step engines.fish operation.fish = .ok fish) :
    engines.step operation = .ok ⟨mp1, fish⟩ := by
  rw [Engines.step, first]
  simp only [second]

theorem add_eq {user : BlinkStruct} (within : user.location.toNat ≤ 1999) (node : Nat) :
    board.add ⟨some node, user, 0, 0, 0⟩ = { board with
      items := ⟨node, user.toBlink.lit⟩ :: board.items
      screen := board.screen.draw user.toBlink.lit }.answer 0 := by
  have inside : ¬ 1999 < user.location.toNat := not_lt.2 within
  rw [Board.add]
  simp [inside]

theorem leads_add (both : Both engines board items) (alike : Alike board engines.fish items)
    {user : BlinkStruct} {mp1Node fishNode : Nat}
    (provided : engines.Provided (.add user mp1Node fishNode)) :
    Leads engines (.add user mp1Node fishNode) := by
  obtain ⟨within, on, off, fresh, real, unlisted⟩ := provided
  have unused : (Operation.add user mp1Node fishNode).mp1.Fresh engines.mp1.driver := by
    intro _ node same
    exact Option.some.inj same ▸ fresh
  obtain ⟨mp1, first, refines⟩ := both.refines.step_of_fresh _ unused fun _ _ _ => within
  have added : board.advance (Operation.add user mp1Node fishNode).mp1 = _ := add_eq within mp1Node
  rw [added] at refines
  have called : mp1Ioctl engines.fish.engine (.add user fishNode) = _ :=
    congrArg Except.ok (mp1IoctlAdd_eq engines.fish.engine (Nat.lt_succ_of_le within) real)
  have holds := both.holds.added real (unlisted _ both.holds.linked) user.toBlink
  refine ⟨_, _, _, step_eq _ first (step_ioctl _ called engines.fish.results),
    ⟨refines, holds, fun item member => ?_⟩, iff_of_true trivial ⟨?_, ?_, ?_⟩⟩
  · rcases List.mem_cons.1 member with rfl | old
    · exact ⟨.inr rfl, on, on, off⟩
    · exact both.running item old
  · exact congrArg (0 :: ·) alike.results
  · exact congrArg (user.toBlink.lit :: ·) alike.lists
  · simp only [Board.answer, Screen.draw, Blink.lit_shown, Fish.added, ← alike.video]
    rfl

theorem leads_remove (both : Both engines board items) (alike : Alike board engines.fish items)
    (arg : BitVec 32) : Leads engines (.remove arg) := by
  obtain ⟨mp1, first, refines⟩ := both.refines.step_of_fresh (Operation.remove arg).mp1
    (fun adds => absurd adds (by decide)) (fun adds => absurd adds (by decide))
  have removed : board.advance (Operation.remove arg).mp1 = board.remove ⟨arg.setWidth 16⟩ := rfl
  rw [removed, Board.remove] at refines
  cases hit : Board.first items ⟨arg.setWidth 16⟩ with
  | none =>
      rw [(first_none_iff alike.lists _).2 hit] at refines
      have called : mp1Ioctl engines.fish.engine (.remove arg) = _ := both.holds.remove_absent hit
      refine ⟨_, _, _, step_eq _ first (step_ioctl _ called engines.fish.results),
        ⟨refines, both.holds, both.running⟩, iff_of_true trivial ⟨?_, alike.lists, alike.video⟩⟩
      exact congrArg (-1 :: ·) alike.results
  | some item =>
      obtain ⟨other, found, -⟩ := first_some_of_blinks alike.lists.symm hit
      obtain ⟨front, rest, split, erased⟩ := Board.first_split hit
      have lists := congrArg (List.eraseP fun blink => blink.location = ⟨arg.setWidth 16⟩)
        alike.lists
      rw [← blinks_eraseP, ← blinks_eraseP, erased] at lists
      subst split
      obtain ⟨after, called, holds, -, -, video⟩ := both.holds.remove hit
      rw [found] at refines
      refine ⟨_, _, _, step_eq _ first (step_ioctl (.remove arg) called engines.fish.results),
        ⟨refines, holds, fun item member => ?_⟩, iff_of_true trivial ⟨?_, lists, ?_⟩⟩
      · exact both.running item (List.mem_of_mem_eraseP member)
      · exact congrArg (0 :: ·) alike.results
      · exact alike.video.trans video.symm

theorem leads_find (both : Both engines board items) (alike : Alike board engines.fish items)
    {pointer : BitVec 32} (valid : pointer ≠ 0) (location : UInt16) :
    Leads engines (.find pointer location) := by
  obtain ⟨mp1, first, refines⟩ := both.refines.step_of_fresh (Operation.find pointer location).mp1
    (fun adds => absurd adds (by decide)) (fun adds => absurd adds (by decide))
  have found : board.advance (Operation.find pointer location).mp1 =
      board.answer (if Board.first items location = none then -1 else 0) := by
    have asked : board.advance (Operation.find pointer location).mp1 =
        board.find ⟨none, zeroed, 0, location, 0⟩ pointer := rfl
    rw [asked, Board.find, if_neg valid]
    cases hit : Board.first board.items location with
    | none => rw [if_pos ((first_none_iff alike.lists _).1 hit)]
    | some item =>
        obtain ⟨other, also, -⟩ := first_some_of_blinks alike.lists hit
        rw [also]
        rfl
  rw [found] at refines
  have called : mp1Ioctl engines.fish.engine (.find location) = _ := both.holds.find location
  refine ⟨_, _, _, step_eq _ first (step_ioctl _ called engines.fish.results),
    ⟨refines, both.holds, both.running⟩, iff_of_true trivial ⟨?_, alike.lists, alike.video⟩⟩
  exact congrArg (_ :: ·) alike.results

/-- A sync coincides when both engines draw the same character. -/
theorem coincides_sync (both : Both engines board items) {arg : BitVec 32}
    {leader follower : Listed}
    (hit : Board.first board.items ⟨(arg >>> 16).setWidth 16⟩ = some leader)
    (second : Board.first board.items ⟨arg.setWidth 16⟩ = some follower) :
    engines.Coincides (.sync arg) ↔
      leader.blink.status = 0 ∨ follower.blink.onChar = follower.blink.offChar := by
  have spells := both.refines.spells
  constructor
  · intro coincides
    exact coincides _ _ ((spells.finds_iff _ _).2 ⟨leader, hit, rfl⟩)
      ((spells.finds_iff _ _).2 ⟨follower, second, rfl⟩)
  · intro same first other finds again
    obtain ⟨_, found, rfl⟩ := (spells.finds_iff _ _).1 finds
    obtain ⟨_, also, rfl⟩ := (spells.finds_iff _ _).1 again
    rw [hit, Option.some_inj] at found
    rw [second, Option.some_inj] at also
    exact found ▸ also ▸ same

theorem leads_sync (both : Both engines board items) (alike : Alike board engines.fish items)
    (arg : BitVec 32) : Leads engines (.sync arg) := by
  obtain ⟨mp1, first, refines⟩ := both.refines.step_of_fresh (Operation.sync arg).mp1
    (fun adds => absurd adds (by decide)) (fun adds => absurd adds (by decide))
  have synced : board.advance (Operation.sync arg).mp1 =
      board.sync ⟨(arg >>> 16).setWidth 16⟩ ⟨arg.setWidth 16⟩ := rfl
  rw [synced, Board.sync] at refines
  have spells := both.refines.spells
  have absent (missing : Board.first board.items ⟨(arg >>> 16).setWidth 16⟩ = none ∨
      Board.first board.items ⟨arg.setWidth 16⟩ = none) : engines.Coincides (.sync arg) := by
    intro leader follower finds again
    obtain ⟨_, hit, -⟩ := (spells.finds_iff _ _).1 finds
    obtain ⟨_, second, -⟩ := (spells.finds_iff _ _).1 again
    rw [hit, second] at missing
    rcases missing with wrong | wrong <;> cases wrong
  cases hit : Board.first board.items ⟨(arg >>> 16).setWidth 16⟩ with
  | none =>
      rw [hit] at refines
      have called : mp1Ioctl engines.fish.engine (.sync arg) = _ :=
        both.holds.sync_absent (.inl ((first_none_iff alike.lists _).1 hit))
      refine ⟨_, _, _, step_eq _ first (step_ioctl _ called engines.fish.results),
        ⟨refines, both.holds, both.running⟩,
        iff_of_true (absent (.inl hit)) ⟨?_, alike.lists, alike.video⟩⟩
      exact congrArg (-1 :: ·) alike.results
  | some leader =>
      cases second : Board.first board.items ⟨arg.setWidth 16⟩ with
      | none =>
          rw [hit, second] at refines
          have called : mp1Ioctl engines.fish.engine (.sync arg) = _ :=
            both.holds.sync_absent (.inr ((first_none_iff alike.lists _).1 second))
          refine ⟨_, _, _, step_eq _ first (step_ioctl _ called engines.fish.results),
            ⟨refines, both.holds, both.running⟩,
            iff_of_true (absent (.inr second)) ⟨?_, alike.lists, alike.video⟩⟩
          exact congrArg (-1 :: ·) alike.results
      | some follower =>
          rw [hit, second] at refines
          obtain ⟨source, found, leads⟩ := first_some_of_blinks alike.lists hit
          obtain ⟨target, again, follows⟩ := first_some_of_blinks alike.lists second
          obtain ⟨after, called, holds, -, video⟩ := both.holds.sync found again
          refine ⟨_, _, _, step_eq _ first (step_ioctl (.sync arg) called engines.fish.results),
            ⟨refines, holds, fun item member => ?_⟩, ?_⟩
          · obtain ⟨old, listed, rfl⟩ := List.mem_map.1 member
            split_ifs
            · exact (both.running leader (Board.first_some hit).1).follow old.blink
            · exact both.running old listed
          · have lists : blinks (Board.retime board.items follower.address leader.blink.follow) =
                blinks (Board.retime items target.address source.blink.follow) := by
              rw [blinks_retime spells.nodup second, blinks_retime both.holds.nodup again,
                alike.lists, leads]
            rw [both.coincides_sync hit second, ← syncChar_eq_shown_iff]
            rw [leads, follows] at video
            constructor
            · intro same
              refine ⟨congrArg (0 :: ·) alike.results, lists, ?_⟩
              rw [video, ← alike.video, same]
              rfl
            · intro next
              have painted : Function.update board.screen.video follower.blink.cell
                  (leader.blink.follow follower.blink).shown = after.video := next.video
              have drawn := congrFun (video.symm.trans painted.symm) follower.blink.cell
              rwa [Function.update_self, Function.update_self] at drawn

/-- A tick coincides when the countdowns of the listed structures are not too long. -/
theorem coincides_tasklet (both : Both engines board items) : engines.Coincides .tasklet ↔
    ∀ item ∈ board.items, item.blink.countdown.toNat ≤ 2 ^ 15 := by
  have spells := both.refines.spells
  constructor
  · intro coincides item member
    have short := coincides item.address ((spells.lists_iff _).2 ⟨item, member, rfl⟩)
    rwa [spells.held item member] at short
  · intro short node listed
    obtain ⟨item, member, rfl⟩ := (spells.lists_iff node).1 listed
    rw [spells.held item member]
    exact short item member

theorem leads_tasklet (both : Both engines board items) (alike : Alike board engines.fish items) :
    Leads engines .tasklet := by
  obtain ⟨mp1, first, refines⟩ := both.refines.step_of_fresh .rtcTasklet trivial trivial
  have ticks : board.advance .rtcTasklet = board.tick := rfl
  rw [ticks] at refines
  obtain ⟨after, ticked, holds, -, video⟩ := both.holds.tick
  have second : Fish.step engines.fish .tasklet = .ok ⟨after, engines.fish.results⟩ := by
    rw [Fish.step, ticked]
    rfl
  refine ⟨_, _, _, step_eq .tasklet first second, ⟨refines, holds, fun item member => ?_⟩, ?_⟩
  · obtain ⟨old, listed, rfl⟩ := List.mem_map.1 member
    exact (both.running old listed).ticked
  · have left : blinks board.tick.items = (blinks board.items).map Blink.ticked := by
      rw [blinks, blinks, Board.tick, List.map_map, List.map_map]
      rfl
    have right : blinks (items.map fun item => { item with blink := Fish.ticked item.blink }) =
        (blinks board.items).map Fish.ticked := by
      rw [alike.lists, blinks, blinks, List.map_map, List.map_map]
      rfl
    rw [both.coincides_tasklet]
    constructor
    · intro short
      refine ⟨alike.results, ?_, ?_⟩
      · rw [left, right]
        refine List.map_congr_left fun blink member => ?_
        obtain ⟨item, listed, rfl⟩ := List.mem_map.1 member
        exact ((ticked_eq_iff (both.running item listed)).2 (short item listed)).symm
      · rw [Board.tick, tick_video_eq both.running short, video, alike.video, alike.lists, blinks,
          List.foldl_map]
    · intro next item member
      have same := next.lists
      rw [left, right, List.map_inj_left] at same
      have alike := same item.blink (List.mem_map_of_mem member)
      exact (ticked_eq_iff (both.running item member)).1 alike.symm

theorem leads (both : Both engines board items) (agree : engines.Agree) {operation : Operation}
    (provided : engines.Provided operation) : Leads engines operation := by
  have alike := both.agree_iff.1 agree
  cases operation with
  | add user mp1Node fishNode => exact both.leads_add alike provided
  | remove arg => exact both.leads_remove alike arg
  | find pointer location => exact both.leads_find alike provided location
  | sync arg => exact both.leads_sync alike arg
  | tasklet => exact both.leads_tasklet alike

/-- The step is the one that leads to both next lists. -/
theorem step_cases (both : Both engines board items) (agree : engines.Agree)
    {operation : Operation} (provided : engines.Provided operation) {next : Engines}
    (stepped : engines.step operation = .ok next) : ∃ board items, Both next board items ∧
      (engines.Coincides operation ↔ next.Agree) := by
  obtain ⟨other, board, items, reached, both, coincides⟩ := both.leads agree provided
  have same : other = next := Except.ok.inj (reached.symm.trans stepped)
  subst same
  exact ⟨board, items, both, coincides.trans both.agree_iff.symm⟩

theorem coincides_iff (both : Both engines board items) (agree : engines.Agree)
    {operation : Operation} (provided : engines.Provided operation) :
    engines.Coincides operation ↔ ∀ next, engines.step operation = .ok next → next.Agree := by
  constructor
  · intro coincides next stepped
    obtain ⟨_, _, -, exact⟩ := both.step_cases agree provided stepped
    exact exact.1 coincides
  · intro agrees
    obtain ⟨next, board, items, reached, after, coincides⟩ := both.leads agree provided
    exact coincides.2 (after.agree_iff.1 (agrees next reached))

end Both

theorem start_both (mp1Node fishNode : Nat → BlinkStruct) (video : Nat → UInt8) :
    Both (Engines.start mp1Node fishNode video) (Board.start video) [] where
  refines := Refines.start mp1Node video
  holds := ⟨rfl, fun _ member => absurd member List.not_mem_nil, Nat.zero_le _⟩
  running _ member := absurd member List.not_mem_nil

/-- The engines agree after every operation exactly in the runs whose syncs and ticks coincide.
Such a run never stops. -/
theorem engines_agree_iff (mp1Node fishNode : Nat → BlinkStruct) (video : Nat → UInt8)
    {operations : List Operation} (provided : Along Engines.Provided Engines.step
      (Engines.start mp1Node fishNode video) operations) :
    (Always Engines.Agree Engines.step (Engines.start mp1Node fishNode video) operations ∧
      ∃ final, run Engines.step (Engines.start mp1Node fishNode video) operations = .ok final) ↔
      Along Engines.Coincides Engines.step (Engines.start mp1Node fishNode video) operations := by
  have both := start_both mp1Node fishNode video
  have agree : (Engines.start mp1Node fishNode video).Agree := both.agree_iff.2 ⟨rfl, rfl, rfl⟩
  have always :
      Always Engines.Agree Engines.step (Engines.start mp1Node fishNode video) operations ↔
      Along Engines.Coincides Engines.step (Engines.start mp1Node fishNode video) operations := by
    refine always_iff_along_given (fun engines => ∃ board items, Both engines board items)
      (fun engines operation next kept agree provided stepped _ => ?_)
      (fun engines operation kept agree provided => ?_) ⟨_, _, both⟩ agree provided
    · obtain ⟨board, items, both⟩ := kept
      obtain ⟨_, _, after, -⟩ := both.step_cases agree provided stepped
      exact ⟨_, _, after⟩
    · obtain ⟨board, items, both⟩ := kept
      exact both.coincides_iff agree provided
  constructor
  · exact fun holds => always.1 holds.1
  · intro coincides
    refine ⟨always.2 coincides, ?_⟩
    cases reached : run Engines.step (Engines.start mp1Node fishNode video) operations with
    | ok final => exact ⟨final, rfl⟩
    | error fault =>
        refine (run_stops (fun engines => (∃ board items, Both engines board items) ∧ engines.Agree)
          (fun _ => False) (fun engines operation next kept given stepped => ?_)
          (fun engines operation fault kept given stopped => ?_) ⟨⟨_, _, both⟩, agree⟩
          (provided.and coincides) reached).elim
        · obtain ⟨⟨board, items, both⟩, agree⟩ := kept
          obtain ⟨_, _, after, exact⟩ := both.step_cases agree given.1 stepped
          exact ⟨⟨_, _, after⟩, exact.1 given.2⟩
        · obtain ⟨⟨board, items, both⟩, agree⟩ := kept
          obtain ⟨next, _, _, done, -⟩ := both.leads agree given.1
          rw [stopped] at done
          cases done

/-- An add of a structure with the same memory in both engines. -/
def addAt (node : Nat) (location onLength : UInt16) : Operation :=
  .add ⟨⟨location, 65, 66, onLength, 1, 0, 0⟩, 0⟩ node node

def sampleStart : Engines := Engines.start (fun _ => zeroed) (fun _ => zeroed) fun _ => 0

theorem provided_first {node : Nat} {location onLength : UInt16} (within : location.toNat ≤ 1999)
    (on : onLength ≠ 0) (real : node ≠ 0) :
    sampleStart.Provided (addAt node location onLength) := by
  have off : (1 : UInt16) ≠ 0 := by decide
  refine ⟨within, on, off, ⟨real, List.not_mem_nil⟩, real, fun nodes linked => ?_⟩
  have empty : Links sampleStart.fish.engine.link 0 0 [] := rfl
  rw [linked.unique empty]
  exact List.not_mem_nil

/-- The nodes behind a list head, up to a number of them. -/
def chain (link : Nat → Nat) : Nat → Nat → List Nat
  | 0, _ => []
  | fuel + 1, address =>
      if address = 0 then [] else address :: chain link fuel (link address)

namespace Engines

/-- A check of both conditions that walks the lists. It takes a sync only from a structure that is
off. -/
def Checked (engines : Engines) : Operation → Prop
  | .add user mp1Node fishNode =>
      let nodes := chain engines.fish.engine.link engines.fish.engine.fuel
        engines.fish.engine.listHead
      (user.location.toNat ≤ 1999 ∧ user.onLength ≠ 0 ∧ user.offLength ≠ 0 ∧
        (mp1Node ≠ 0 ∧ mp1Node ∉ engines.mp1.driver.live) ∧ fishNode ≠ 0) ∧
        Links engines.fish.engine.link 0 engines.fish.engine.listHead nodes ∧ fishNode ∉ nodes
  | .remove _ => True
  | .find pointer _ => pointer ≠ 0
  | .sync arg =>
      ∀ leader ∈ (mp1Search engines.mp1.driver ⟨(arg >>> 16).setWidth 16⟩).toOption,
        (engines.mp1.driver.node leader).status = 0
  | .tasklet =>
      let nodes := chain engines.mp1.driver.link engines.fish.engine.fuel
        engines.mp1.driver.listHead
      Links engines.mp1.driver.link 0 engines.mp1.driver.listHead nodes ∧
        ∀ node ∈ nodes, (engines.mp1.driver.node node).countdown.toNat ≤ 2 ^ 15

instance (engines : Engines) (operation : Operation) : Decidable (engines.Checked operation) := by
  cases operation <;> unfold Checked <;> infer_instance

variable {engines : Engines} {operation : Operation}

theorem Checked.provided (checked : engines.Checked operation) : engines.Provided operation := by
  cases operation with
  | add user mp1Node fishNode =>
      obtain ⟨⟨within, on, off, fresh, real⟩, linked, unlisted⟩ := checked
      refine ⟨within, on, off, fresh, real, fun nodes again => ?_⟩
      rwa [again.unique linked]
  | find pointer location => exact checked
  | remove | sync | tasklet => trivial

theorem Checked.coincides (checked : engines.Checked operation) : engines.Coincides operation := by
  cases operation with
  | sync arg =>
      rintro leader follower ⟨address, searched, _, rfl⟩ _
      exact .inl (checked address (by rw [searched]; rfl))
  | tasklet =>
      rintro node ⟨nodes, linked, member⟩
      rw [linked.unique checked.1] at member
      exact checked.2 node member
  | add | remove | find => trivial

end Engines

/-- Two structures are added, the first one goes off, the second one follows it and is found, and
the first one is removed. -/
def sampleRun : List Operation :=
  [addAt 16 5 1, addAt 32 7 4, .tasklet, .sync 0x50007, .find 1 7, .remove 5, .tasklet]

theorem sampleRun_checked : Along Engines.Checked Engines.step sampleStart sampleRun := by
  decide +kernel

theorem engines_agree_sample : ∃ final,
    run Engines.step sampleStart sampleRun = .ok final ∧ final.Agree := by
  obtain ⟨always, final, reached⟩ :=
    (engines_agree_iff (fun _ => zeroed) (fun _ => zeroed) (fun _ => 0)
      (sampleRun_checked.mono fun _ _ => Engines.Checked.provided)).2
      (sampleRun_checked.mono fun _ _ => Engines.Checked.coincides)
  exact ⟨final, reached, (always_iff_reached ..).1 always _ final (List.prefix_refl _) reached⟩

/-- The signed test ends a long period at once, and a sync never draws the first character. -/
theorem engines_disagree :
    (Along Engines.Provided Engines.step sampleStart [addAt 16 5 0x8001, .tasklet] ∧
      ¬ Always Engines.Agree Engines.step sampleStart [addAt 16 5 0x8001, .tasklet]) ∧
    Along Engines.Provided Engines.step sampleStart [addAt 16 5 3, .sync 0x50005] ∧
      ¬ Always Engines.Agree Engines.step sampleStart [addAt 16 5 3, .sync 0x50005] := by
  have long : sampleStart.Provided (addAt 16 5 0x8001) :=
    provided_first (by decide) (by decide) (by decide)
  have short : sampleStart.Provided (addAt 16 5 3) :=
    provided_first (by decide) (by decide) (by decide)
  refine ⟨⟨⟨long, fun _ _ => ⟨trivial, fun _ _ => trivial⟩⟩, fun always => ?_⟩,
    ⟨short, fun _ _ => ⟨trivial, fun _ _ => trivial⟩⟩, fun always => ?_⟩
  · have agree := ((always.2 _ rfl).2 _ rfl).initial
    exact absurd (congrFun agree.video 10) (show (65 : UInt8) ≠ 66 by decide)
  · have agree := ((always.2 _ rfl).2 _ rfl).initial
    exact absurd (congrFun agree.video 10) (show (65 : UInt8) ≠ 66 by decide)

end ComputerSystems.Fish
