import ComputerSystems.Proof.Mp1.BlinkTiming

namespace ComputerSystems.Mp1

open Library

namespace Blink

/-- The structures have the same timing. -/
structure InStep (first second : Blink) : Prop where
  status : first.status = second.status
  countdown : first.countdown = second.countdown
  onLength : first.onLength = second.onLength
  offLength : first.offLength = second.offLength

variable {first second : Blink}

theorem InStep.expires (inStep : first.InStep second) : first.expires = second.expires := by
  rw [Blink.expires, inStep.countdown, Blink.expires]

/-- A tick keeps structures in step. -/
theorem InStep.ticked (inStep : first.InStep second) : first.ticked.InStep second.ticked := by
  obtain ⟨status, countdown, onLength, offLength⟩ := inStep
  rw [Blink.ticked, Blink.ticked, InStep.expires ⟨status, countdown, onLength, offLength⟩, status]
  split_ifs
  · exact ⟨rfl, onLength, onLength, offLength⟩
  · exact ⟨rfl, offLength, onLength, offLength⟩
  · exact ⟨status, congrArg (· - 1) countdown, onLength, offLength⟩

theorem InStep.advance (inStep : first.InStep second) (event : Event) :
    (first.advance event).InStep (second.advance event) := by
  rw [Blink.advance, Blink.advance]
  split_ifs
  · exact inStep.ticked
  · exact inStep

/-- An event that ends no period keeps the status and the character. -/
theorem advance_still {blink : Blink} {event : Event}
    (still : ¬ (event.isTick && blink.expires) = true) :
    (blink.advance event).status = blink.status ∧ (blink.advance event).shown = blink.shown := by
  rw [advance]
  split_ifs with ticks
  · have runs : ¬ blink.expires = true := by simpa [ticks] using still
    refine ⟨?_, ticked_shown runs⟩
    rw [ticked, if_neg runs]
    rfl
  · exact ⟨rfl, rfl⟩

@[simp] theorem advance_location (blink : Blink) (event : Event) :
    (blink.advance event).location = blink.location := by
  rw [advance, apply_ite location, ticked_location, ite_self]

theorem foldl_location (blink : Blink) (events : List Event) :
    (events.foldl advance blink).location = blink.location := by
  induction events generalizing blink with
  | nil => rfl
  | cons event rest ih => rw [List.foldl_cons, ih, advance_location]

theorem InStep.foldl (inStep : first.InStep second) (events : List Event) :
    (events.foldl Blink.advance first).InStep (events.foldl Blink.advance second) := by
  induction events generalizing first second with
  | nil => exact inStep
  | cons event rest ih => exact ih (inStep.advance event)

@[simp] theorem advance_cell (blink : Blink) (event : Event) :
    (blink.advance event).cell = blink.cell := by
  rw [cell, advance_location, cell]

end Blink

/-- The character of the structure is on the screen. -/
def Screen.Shows (screen : Screen) (blink : Blink) : Prop := screen.video blink.cell = blink.shown

/-- A call that removes or syncs does so at another location. -/
def Event.Elsewhere (event : Event) (location : UInt16) : Prop :=
  match event with
  | .ioctl _ arg cmd => cmd = 1 ∨ cmd = 3 → location ≠ ⟨arg.setWidth 16⟩
  | .rtcTasklet => True

namespace Board

/-- The structure is still listed, and its character is still on the screen. -/
structure Leaves (board after : Board) (blink : Blink) : Prop where
  listed : ∃ later ∈ after.items, later.blink = blink
  video : after.screen.video blink.cell = board.screen.video blink.cell

variable {board : Board} {item : Listed} {event : Event}

theorem leaves_answer (member : item ∈ board.items) (result : Int) :
    board.Leaves (board.answer result) item.blink :=
  ⟨⟨item, member, rfl⟩, rfl⟩

theorem leaves_add (member : item ∈ board.items) {helpers : Helpers}
    (fresh : helpers.allocated ≠ none → helpers.uncopied = 0 →
      item.blink.location ≠ helpers.copied.location) :
    board.Leaves (board.add helpers) item.blink := by
  rw [add]
  cases allocated : helpers.allocated with
  | none => exact leaves_answer member (-1)
  | some address =>
      dsimp only
      split_ifs with failed
      · exact leaves_answer member (-1)
      · rw [not_or, not_not] at failed
        refine ⟨⟨item, List.mem_cons_of_mem _ member, rfl⟩, ?_⟩
        have apart := fresh (by rw [allocated]; exact Option.some_ne_none _) failed.1
        exact board.screen.draw_video_of_ne (Consistent.cell_ne apart)

theorem leaves_remove (member : item ∈ board.items) {location : UInt16}
    (elsewhere : item.blink.location ≠ location) :
    board.Leaves (board.remove location) item.blink := by
  refine ⟨?_, by rw [remove_screen]⟩
  rw [remove]
  cases first board.items location with
  | none => exact ⟨item, member, rfl⟩
  | some removed =>
      refine ⟨item, ?_, rfl⟩
      exact (List.mem_eraseP_of_neg (by simpa using elsewhere)).2 member

theorem leaves_find (member : item ∈ board.items) (helpers : Helpers) (arg : BitVec 32) :
    board.Leaves (board.find helpers arg) item.blink := by
  refine ⟨?_, by rw [find_screen]⟩
  rw [find]
  by_cases null : arg = 0
  · rw [if_pos null]
    exact ⟨item, member, rfl⟩
  · rw [if_neg null]
    cases first board.items helpers.userLocation with
    | none => exact ⟨item, member, rfl⟩
    | some found => exact ⟨item, member, rfl⟩

theorem leaves_sync (unique : (addresses board.items).Nodup) (member : item ∈ board.items)
    {source target : UInt16} (elsewhere : item.blink.location ≠ target) :
    board.Leaves (board.sync source target) item.blink := by
  rw [sync]
  cases first board.items source with
  | none => exact leaves_answer member (-1)
  | some leader =>
      cases second : first board.items target with
      | none => exact leaves_answer member (-1)
      | some follower =>
          obtain ⟨follows, here⟩ := first_some second
          have apart : item.blink.location ≠ follower.blink.location := here ▸ elsewhere
          refine ⟨⟨item, List.mem_map.2 ⟨item, member, if_neg fun same => ?_⟩, rfl⟩, ?_⟩
          · have one : item = follower := List.inj_on_of_nodup_map unique member follows same
            exact apart (congrArg (fun item => item.blink.location) one)
          · exact board.screen.draw_video_of_ne (Consistent.cell_ne apart)

/-- A call elsewhere leaves the structure alone. -/
theorem leaves_ioctl (unique : (addresses board.items).Nodup) (member : item ∈ board.items)
    {helpers : Helpers} {arg cmd : BitVec 32} (admits : board.Admits (.ioctl helpers arg cmd))
    (elsewhere : (Event.ioctl helpers arg cmd).Elsewhere item.blink.location) :
    board.Leaves (board.advance (.ioctl helpers arg cmd)) item.blink := by
  rw [advance]
  split_ifs with invalid adds removes finds
  · exact leaves_answer member (-1)
  · exact leaves_add member fun some copied => (admits adds some copied).2 item member
  · exact leaves_remove member (elsewhere (.inl removes))
  · exact leaves_find member helpers arg
  · exact leaves_sync unique member (elsewhere (.inr (syncs_of_rest invalid adds removes finds)))

/-- Only a tick changes the structure and its character when the calls are elsewhere. -/
theorem advance_elsewhere (distinct : board.Distinct) (unique : (addresses board.items).Nodup)
    (admits : board.Admits event) (member : item ∈ board.items)
    (elsewhere : event.Elsewhere item.blink.location) :
    (∃ later ∈ (board.advance event).items, later.blink = item.blink.advance event) ∧
      (board.advance event).screen.video item.blink.cell =
        if event.isTick && item.blink.expires then item.blink.ticked.shown
        else board.screen.video item.blink.cell := by
  cases event with
  | ioctl helpers arg cmd =>
      obtain ⟨listed, video⟩ := leaves_ioctl unique member admits elsewhere
      exact ⟨listed, video⟩
  | rtcTasklet =>
      refine ⟨⟨_, List.mem_map.2 ⟨item, member, rfl⟩, rfl⟩, ?_⟩
      exact board.screen.tick_video_of_mem distinct member

theorem first_of_mem (distinct : board.Distinct) (member : item ∈ board.items) :
    first board.items item.blink.location = some item := by
  cases hit : first board.items item.blink.location with
  | none => simpa using List.find?_eq_none.1 hit item member
  | some other =>
      obtain ⟨listed, same⟩ := first_some hit
      exact congrArg some (List.inj_on_of_nodup_map distinct listed member same)

end Board

/-- The driver finds the structure at the location. -/
def Driver.Finds (driver : Driver) (location : UInt16) (blink : Blink) : Prop :=
  ∃ address, mp1Search driver location = .ok address ∧ address ≠ 0 ∧
    (driver.node address).toBlink = blink

theorem Driver.Finds.unique {driver : Driver} {location : UInt16} {first second : Blink}
    (finds : driver.Finds location first) (again : driver.Finds location second) :
    first = second := by
  obtain ⟨address, searched, -, rfl⟩ := finds
  obtain ⟨other, searchedAgain, -, rfl⟩ := again
  rw [searched] at searchedAgain
  cases searchedAgain
  rfl

/-- The driver finds the first listed structure with the location. -/
theorem Spells.finds_iff {driver : Driver} {items : List Listed} (spells : Spells driver items)
    (location : UInt16) (blink : Blink) :
    driver.Finds location blink ↔
      ∃ item, Board.first items location = some item ∧ item.blink = blink := by
  constructor
  · rintro ⟨address, searched, real, rfl⟩
    rw [spells.mp1Search_eq] at searched
    cases hit : Board.first items location with
    | none =>
        rw [hit] at searched
        exact absurd (Except.ok.inj searched).symm real
    | some item =>
        rw [hit] at searched
        have here : item.address = address := Except.ok.inj searched
        exact ⟨item, rfl, here ▸ (spells.held item (Board.first_some hit).1).symm⟩
  · rintro ⟨item, hit, rfl⟩
    have member := (Board.first_some hit).1
    have searched := spells.mp1Search_eq location
    rw [hit] at searched
    exact ⟨item.address, searched, spells.real member, spells.held item member⟩

/-- The location shows its character if it has done so before, or if its status has changed. -/
def Redraws (location : UInt16) (old now : Driver) : Prop :=
  ∀ before after, old.Finds location before → now.Finds location after →
    (old.screen.Shows before ∨ after.status ≠ before.status) → now.screen.Shows after

/-- The driver refines a list in which the structure has a location of its own. Its character is on
the screen if it once was, or once its status has changed. -/
structure Follows (shown : Prop) (status : UInt16) (system : System) (board : Board)
    (blink : Blink) : Prop where
  refines : Refines system board
  distinct : board.Distinct
  listed : ∃ item ∈ board.items, item.blink = blink
  redrawn : shown ∨ blink.status ≠ status → board.screen.Shows blink

namespace Follows

variable {shown : Prop} {status location : UInt16} {system next : System} {board : Board}
  {blink : Blink} {event : Event}

theorem finds (follows : Follows shown status system board blink) :
    system.driver.Finds blink.location blink := by
  obtain ⟨item, member, rfl⟩ := follows.listed
  have first := Board.first_of_mem follows.distinct member
  exact (follows.refines.spells.finds_iff _ _).2 ⟨item, first, rfl⟩

theorem step (follows : Follows shown status system board blink)
    (admissible : Admissible system event) (elsewhere : event.Elsewhere blink.location)
    (stepped : Mp1.step system event = .ok next) :
    Follows shown status next (board.advance event) (blink.advance event) := by
  obtain ⟨refines, distinct, ⟨item, member, rfl⟩, redrawn⟩ := follows
  have admits := refines.admits event admissible
  obtain ⟨listed, video⟩ :=
    Board.advance_elsewhere distinct refines.spells.nodup admits member elsewhere
  have after := refines.advance_admits admits stepped
  refine ⟨after, distinct.advance admits, listed, fun changed => ?_⟩
  rw [Screen.Shows, Blink.advance_cell, video]
  split_ifs with toggles
  · rw [Bool.and_eq_true] at toggles
    rw [Blink.advance, if_pos toggles.1]
  · obtain ⟨same, still⟩ := Blink.advance_still toggles
    rw [still]
    exact redrawn (changed.imp_right fun different => same ▸ different)

theorem run (follows : Follows shown status system board blink) {events : List Event}
    (allowed : Along (fun system event => Admissible system event ∧ event.Elsewhere blink.location)
      Mp1.step system events) (reached : Library.run Mp1.step system events = .ok next) :
    ∃ later, Follows shown status next later (events.foldl Blink.advance blink) := by
  have related := run_simulates_along
    (fun system other => other.location = blink.location ∧
      ∃ board, Follows shown status system board other) Blink.advance
    (fun system event next other related allowed stepped => by
      obtain ⟨same, board, follows⟩ := related
      refine ⟨(other.advance_location event).trans same, board.advance event, ?_⟩
      exact follows.step allowed.1 (same ▸ allowed.2) stepped) ⟨rfl, board, follows⟩ allowed reached
  exact related.2

theorem redraws (follows : Follows shown status system board blink) {events : List Event}
    (allowed : Along (fun system event => Admissible system event ∧ event.Elsewhere blink.location)
      Mp1.step system events) (reached : Library.run Mp1.step system events = .ok next) :
    Redraws blink.location system.driver next.driver := by
  intro before after old new changed
  rw [old.unique follows.finds] at changed
  have again : Follows (system.driver.screen.Shows blink) blink.status system board blink := by
    refine ⟨follows.refines, follows.distinct, follows.listed, fun since => ?_⟩
    rw [← follows.refines.screen]
    exact since.resolve_right (not_not.2 rfl)
  obtain ⟨board, later⟩ := again.run allowed reached
  have finds := later.finds
  rw [Blink.foldl_location] at finds
  rw [new.unique finds] at changed ⊢
  rw [later.refines.screen]
  exact later.redrawn changed

end Follows

/-- The structures at the locations have the same timing, and the second shows its character. -/
def InPhase (driver : Driver) (source target : UInt16) : Prop :=
  ∃ leader follower, driver.Finds source leader ∧ driver.Finds target follower ∧
    leader.InStep follower ∧ driver.screen.Shows follower

/-- The event is admissible, and it neither removes nor syncs to the locations. -/
def Passes (source target : UInt16) (system : System) (event : Event) : Prop :=
  Admissible system event ∧ event.Elsewhere source ∧ event.Elsewhere target

/-- Two locations stay in phase through all ticks and all calls at other locations. -/
def StaysInPhase (synced : System) (source target : UInt16) : Prop :=
  ∀ events, Along (Passes source target) step synced events →
    match run step synced events with
    | .ok now => InPhase now.driver source target ∧
        ∀ rest later, Along (Passes source target) step now rest → run step now rest = .ok later →
          Redraws source now.driver later.driver
    | .error fault => fault = .badAllocator

/-- A sync fails exactly when a location is absent, and then changes nothing. A successful sync
keeps the order of the list, and changes only the timing of its target. -/
structure Syncs (driver after : Driver) (result : Int) (source target : UInt16) : Prop where
  answers : result = 0 ∨ result = -1
  fails : result = -1 ↔ mp1Search driver source = .ok 0 ∨ mp1Search driver target = .ok 0
  still : result = -1 → after = driver
  order : after.listHead = driver.listHead ∧ after.link = driver.link ∧ after.live = driver.live
  others : ∀ address, mp1Search driver target ≠ .ok address →
    after.node address = driver.node address
  place : ∀ address, (after.node address).location = (driver.node address).location ∧
    (after.node address).onChar = (driver.node address).onChar ∧
    (after.node address).offChar = (driver.node address).offChar

theorem syncs_of_cases {arg : BitVec 32} {driver after : Driver} {result : Int}
    (synced : mp1IoctlSync arg driver = .ok (result, after)) :
    Syncs driver after result ⟨(arg >>> 16).setWidth 16⟩ ⟨arg.setWidth 16⟩ := by
  rcases mp1IoctlSync_cases synced with ⟨rfl, rfl, absent⟩ |
    ⟨first, second, searched, again, present, also, rfl, head, live, node⟩
  · exact ⟨.inr rfl, iff_of_true rfl absent, fun _ => rfl, ⟨rfl, rfl, rfl⟩, fun _ _ => rfl,
      fun _ => ⟨rfl, rfl, rfl⟩⟩
  · refine ⟨.inl rfl, iff_of_false (by decide) ?_, fun wrong => absurd wrong (by decide),
      ⟨head, Driver.link_follow node, live⟩, fun address other => ?_, fun address => ?_⟩
    · rw [searched, again]
      simp [present, also]
    · have apart : address ≠ second := fun same => other (again.trans (congrArg _ same.symm))
      rw [node, Function.update_of_ne apart]
    · rw [node]
      by_cases same : address = second
      · subst same
        rw [Function.update_self]
        exact ⟨rfl, rfl, rfl⟩
      · rw [Function.update_of_ne same]
        exact ⟨rfl, rfl, rfl⟩

section
variable {driver : Driver} {items : List Listed}

/-- After a sync the list has both structures in step, and the second shows its character. -/
theorem Board.sync_inStep (board : Board) {leader follower : Listed} {source target : UInt16}
    (hit : first board.items source = some leader)
    (second : first board.items target = some follower) :
    (∃ item ∈ (board.sync source target).items, item.blink = leader.blink) ∧
      (∃ item ∈ (board.sync source target).items,
        item.blink = leader.blink.follow follower.blink) ∧
      (board.sync source target).screen.Shows (leader.blink.follow follower.blink) := by
  rw [sync, hit, second]
  refine ⟨⟨_, List.mem_map.2 ⟨leader, (first_some hit).1, rfl⟩, ?_⟩,
    ⟨_, List.mem_map.2 ⟨follower, (first_some second).1, rfl⟩, ?_⟩, Function.update_self ..⟩
  · split_ifs
    · rfl
    · rfl
  · rw [if_pos rfl]

theorem Refines.withResults {results : List Int} {after : Driver} {board : Board}
    (refines : Refines ⟨after, results⟩ board) (others : List Int) :
    Refines ⟨after, others⟩ { board with results := others } :=
  ⟨refines.spells, refines.screen, rfl⟩

theorem Passes.within {source target : UInt16} {system : System} {event : Event}
    (passes : Passes source target system event) : event.Within := by
  cases event with
  | ioctl helpers arg cmd => exact fun adds some copied => (passes.1 adds some copied).1
  | rtcTasklet => trivial

/-- A sync of listed locations with places of their own puts them in phase. -/
theorem sync_staysInPhase (spells : Spells driver items)
    (distinct : (items.map fun item => item.blink.location).Nodup) (helpers : Helpers)
    (arg : BitVec 32) (results : List Int) :
    ∃ result after, mp1Ioctl helpers arg 3 driver = .ok (result, after) ∧
      Syncs driver after result ⟨(arg >>> 16).setWidth 16⟩ ⟨arg.setWidth 16⟩ ∧
      (result = 0 →
        StaysInPhase ⟨after, results⟩ ⟨(arg >>> 16).setWidth 16⟩ ⟨arg.setWidth 16⟩) := by
  have before : Refines ⟨driver, []⟩ ⟨items, driver.screen, []⟩ := ⟨spells, rfl, rfl⟩
  obtain ⟨result, after, called, refines⟩ := before.sync arg
  have syncs := syncs_of_cases called
  refine ⟨result, after, called, syncs, fun succeeds events allowed => ?_⟩
  have searched (location : UInt16) := spells.mp1Search_eq location
  have found := mt syncs.fails.2 (succeeds ▸ by decide)
  rw [not_or, searched, searched] at found
  cases hit : Board.first items ⟨(arg >>> 16).setWidth 16⟩ with
  | none => exact absurd (congrArg _ (congrArg pointer hit)) found.1
  | some leader =>
      cases second : Board.first items ⟨arg.setWidth 16⟩ with
      | none => exact absurd (congrArg _ (congrArg pointer second)) found.2
      | some follower =>
          obtain ⟨leads, follows, shows⟩ := Board.sync_inStep ⟨items, driver.screen, []⟩ hit second
          have apart : Board.Distinct ⟨items, driver.screen, []⟩ := distinct
          have kept := apart.sync ⟨(arg >>> 16).setWidth 16⟩ ⟨arg.setWidth 16⟩
          have source := (Board.first_some hit).2
          have target : (leader.blink.follow follower.blink).location = _ :=
            (Board.first_some second).2
          have refines := refines.withResults results
          have left : Follows False leader.blink.status ⟨after, results⟩ _ leader.blink :=
            ⟨refines, kept, leads, fun changed => absurd rfl (changed.resolve_left id)⟩
          have right : Follows True 0 ⟨after, results⟩ _ (leader.blink.follow follower.blink) :=
            ⟨refines, kept, follows, fun _ => shows⟩
          have passes := allowed.mono fun system event passes => Passes.within passes
          cases reached : run step ⟨after, results⟩ events with
          | error fault => exact refines.spells.run_stops passes reached
          | ok now =>
              obtain ⟨_, first⟩ := left.run (allowed.mono fun system event passes =>
                ⟨passes.1, source.symm ▸ passes.2.1⟩) reached
              obtain ⟨_, last⟩ := right.run (allowed.mono fun system event passes =>
                ⟨passes.1, target.symm ▸ passes.2.2⟩) reached
              have inStep : leader.blink.InStep (leader.blink.follow follower.blink) :=
                ⟨rfl, rfl, rfl, rfl⟩
              have finds := first.finds
              have findsToo := last.finds
              rw [Blink.foldl_location, source] at finds
              rw [Blink.foldl_location, target] at findsToo
              refine ⟨⟨_, _, finds, findsToo, inStep.foldl events, ?_⟩, ?_⟩
              · rw [last.refines.screen]
                exact last.redrawn (.inl trivial)
              · intro rest later others reached
                have here : (events.foldl Blink.advance leader.blink).location = _ :=
                  (Blink.foldl_location ..).trans source
                rw [← here] at others ⊢
                exact first.redraws (others.mono fun system event passes =>
                  ⟨passes.1, passes.2.1⟩) reached

end

theorem Spells.reached (events : List Event) {system : System}
    (reached : run step (start (fun _ => unsetNode) fun _ => 0) events = .ok system)
    (within : ∀ event ∈ events, event.Within) :
    Spells system.driver (events.foldl Board.advance (Board.start fun _ => 0)).items :=
  (run_simulates_along Refines Board.advance Refines.preserved (Refines.start _ _)
    (along_of_forall step _ events within) reached).spells

def idleHelpers : Helpers := ⟨none, unsetNode, 0, 0, 0⟩

theorem sync_staysInPhase_sample : ∃ system after,
    run step (start (fun _ => unsetNode) fun _ => 0) [sampleAdd 16 5, sampleAdd 32 7] = .ok system ∧
      mp1Ioctl idleHelpers 0x50007 3 system.driver = .ok (0, after) ∧
      StaysInPhase ⟨after, []⟩ 5 7 := by
  have spells := Spells.reached [sampleAdd 16 5, sampleAdd 32 7] rfl (by
    simp [Event.Within, sampleAdd])
  obtain ⟨result, after, called, syncs, stays⟩ :=
    sync_staysInPhase spells (by decide) idleHelpers 0x50007 []
  have answered := congrArg (fun outcome => outcome.toOption.map Prod.fst) called
  have succeeds : 0 = result := Option.some.inj answered
  subst succeeds
  exact ⟨_, after, rfl, called, stays rfl⟩

/-- An add over a location that is taken, a remove there, and an add elsewhere. -/
def staleEvents : List Event :=
  [sampleAdd 16 5, .ioctl ⟨some 32, ⟨⟨5, 67, 68, 2, 1, 0, 0⟩, 0⟩, 0, 0, 0⟩ 0 0,
    .ioctl idleHelpers 5 1, sampleAdd 48 7]

/-- A remove leaves its character on the screen, where the first location of a sync keeps it until
its status changes. -/
theorem sync_stale : ∃ system after,
    run step (start (fun _ => unsetNode) fun _ => 0) staleEvents = .ok system ∧
      (∃ items, Spells system.driver items ∧
        (items.map fun item => item.blink.location).Nodup) ∧
      mp1Ioctl idleHelpers 0x50007 3 system.driver = .ok (0, after) ∧
      ¬ ∀ now, run step ⟨after, []⟩ [.rtcTasklet] = .ok now →
        ∃ blink, now.driver.Finds 5 blink ∧ now.driver.screen.Shows blink := by
  have within : ∀ event ∈ staleEvents, event.Within := by
    simp [staleEvents, Event.Within, sampleAdd]
  refine ⟨_, _, rfl, ⟨_, Spells.reached staleEvents rfl within, by decide⟩, rfl, fun shows => ?_⟩
  obtain ⟨blink, finds, shown⟩ := shows _ rfl
  have own := finds.unique ⟨16, rfl, by decide, rfl⟩
  subst own
  exact absurd shown (show (67 : UInt8) ≠ 65 by decide)

end ComputerSystems.Mp1
