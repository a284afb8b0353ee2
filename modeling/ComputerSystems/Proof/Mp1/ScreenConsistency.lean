import ComputerSystems.Proof.Mp1.Refinement

namespace ComputerSystems.Mp1

open Library

namespace Blink

/-- The status is one of the two that the driver sets. -/
def Toggles (blink : Blink) : Prop := blink.status = 0 ∨ blink.status = 1

theorem cell_injective {first second : Blink} (same : first.cell = second.cell) :
    first.location = second.location :=
  UInt16.toNat.inj (Nat.eq_of_mul_eq_mul_left two_pos same)

@[simp] theorem ticked_location (blink : Blink) : blink.ticked.location = blink.location := by
  rw [ticked, apply_ite location, apply_ite location]
  simp [lit, dark, counted]

@[simp] theorem ticked_cell (blink : Blink) : blink.ticked.cell = blink.cell :=
  congrArg (fun location : UInt16 => 2 * location.toNat) blink.ticked_location

theorem ticked_toggles {blink : Blink} (toggles : blink.Toggles) : blink.ticked.Toggles := by
  rw [ticked]
  split_ifs
  · exact .inr rfl
  · exact .inl rfl
  · exact toggles

/-- A tick at the end of a period toggles the status. -/
theorem ticked_status {blink : Blink} (expires : blink.expires = true) :
    blink.ticked.status ≠ blink.status := by
  rw [ticked, if_pos expires]
  by_cases off : blink.status = 0
  · rw [if_pos off, off]
    exact (by decide : (1 : UInt16) ≠ 0)
  · rw [if_neg off]
    exact Ne.symm off

/-- A tick inside a period keeps the character. -/
theorem ticked_shown {blink : Blink} (runs : ¬ blink.expires = true) :
    blink.ticked.shown = blink.shown := by
  rw [ticked, if_neg runs]
  rfl

end Blink

namespace Screen

/-- The screen changes only at the offsets of its new writes. -/
theorem draw_video_of_ne (screen : Screen) {blink : Blink} {offset : Nat}
    (other : offset ≠ blink.cell) : (screen.draw blink).video offset = screen.video offset :=
  Function.update_of_ne other ..

theorem tickOne_video_of_ne (screen : Screen) {blink : Blink} {offset : Nat}
    (other : offset ≠ blink.cell) : (screen.tickOne blink).video offset = screen.video offset := by
  rw [tickOne]
  split_ifs
  · exact screen.draw_video_of_ne (by rwa [Blink.ticked_cell])
  · rfl

theorem tick_cons (screen : Screen) (item : Listed) (rest : List Listed) :
    screen.tick (item :: rest) = (screen.tickOne item.blink).tick rest := rfl

theorem tick_video_of_notMem (screen : Screen) {items : List Listed} {offset : Nat}
    (other : ∀ item ∈ items, offset ≠ item.blink.cell) :
    (screen.tick items).video offset = screen.video offset := by
  induction items generalizing screen with
  | nil => rfl
  | cons item rest ih =>
      rw [tick_cons, ih _ fun later member => other later (List.mem_cons_of_mem item member)]
      exact screen.tickOne_video_of_ne (other item List.mem_cons_self)

/-- A tick changes the character of a structure exactly when its period ends. -/
theorem tick_video_of_mem (screen : Screen) {items : List Listed}
    (distinct : (items.map fun item => item.blink.location).Nodup) {item : Listed}
    (member : item ∈ items) : (screen.tick items).video item.blink.cell =
      if item.blink.expires then item.blink.ticked.shown else screen.video item.blink.cell := by
  induction items generalizing screen with
  | nil => exact absurd member List.not_mem_nil
  | cons head rest ih =>
      rw [List.map_cons, List.nodup_cons] at distinct
      have apart : ∀ other ∈ rest, other.blink.cell ≠ head.blink.cell := fun other member same =>
        distinct.1 (Blink.cell_injective same ▸
          List.mem_map_of_mem (f := fun item : Listed => item.blink.location) member)
      rw [tick_cons]
      rcases List.mem_cons.1 member with rfl | later
      · rw [tick_video_of_notMem _ fun other member => (apart other member).symm, tickOne]
        split_ifs
        · rw [draw, Blink.ticked_cell]
          exact Function.update_self ..
        · rfl
      · rw [ih _ distinct.2 later, screen.tickOne_video_of_ne (apart item later)]

/-- A tick brings the characters of all structures up to date when their locations differ. -/
theorem tick_video (screen : Screen) {items : List Listed}
    (distinct : (items.map fun item => item.blink.location).Nodup)
    (shows : ∀ item ∈ items, screen.video item.blink.cell = item.blink.shown) :
    ∀ item ∈ items, (screen.tick items).video item.blink.cell = item.blink.ticked.shown := by
  intro item member
  rw [screen.tick_video_of_mem distinct member, shows item member]
  split_ifs with expires
  · rfl
  · exact (Blink.ticked_shown expires).symm

/-- The writes from one screen to the next are at owned offsets, and the other bytes stay. -/
def Writes (before after : Screen) (owned : Nat → Prop) : Prop :=
  ∃ written, after.pokes = written ++ before.pokes ∧ (∀ offset ∈ written, owned offset) ∧
    ∀ offset ∉ written, after.video offset = before.video offset

namespace Writes

variable {before middle after : Screen} {owned other : Nat → Prop}

theorem refl (screen : Screen) (owned : Nat → Prop) : Writes screen screen owned :=
  ⟨[], rfl, fun _ member => absurd member List.not_mem_nil, fun _ _ => rfl⟩

theorem trans (first : Writes before middle owned) (second : Writes middle after owned) :
    Writes before after owned := by
  obtain ⟨early, pokes, owners, frame⟩ := first
  obtain ⟨late, morePokes, moreOwners, moreFrame⟩ := second
  refine ⟨late ++ early, ?_, fun offset member => ?_, fun offset absent => ?_⟩
  · rw [morePokes, pokes, List.append_assoc]
  · exact (List.mem_append.1 member).elim (moreOwners offset) (owners offset)
  · rw [List.mem_append, not_or] at absent
    rw [moreFrame offset absent.1, frame offset absent.2]

theorem mono (writes : Writes before after owned)
    (covers : ∀ offset, owned offset → other offset) : Writes before after other := by
  obtain ⟨written, pokes, owners, frame⟩ := writes
  exact ⟨written, pokes, fun offset member => covers offset (owners offset member), frame⟩

theorem draw (screen : Screen) (blink : Blink) (owns : owned blink.cell) :
    Writes screen (screen.draw blink) owned := by
  refine ⟨[blink.cell], rfl, fun offset member => ?_, fun offset absent => ?_⟩
  · rw [List.mem_singleton.1 member]
    exact owns
  · exact screen.draw_video_of_ne fun same => absent (List.mem_singleton.2 same)

/-- The writes of a tick are at the structures whose period ends. -/
theorem tick (screen : Screen) (items : List Listed) (owns : ∀ item ∈ items,
    item.blink.expires = true → owned item.blink.cell) :
    Writes screen (screen.tick items) owned := by
  induction items generalizing screen with
  | nil => exact refl screen owned
  | cons item rest ih =>
      have one : Writes screen (screen.tickOne item.blink) owned := by
        rw [tickOne]
        split_ifs with expires
        · refine draw screen _ ?_
          rw [Blink.ticked_cell]
          exact owns item List.mem_cons_self expires
        · exact refl screen owned
      exact one.trans (ih _ fun other member => owns other (List.mem_cons_of_mem item member))

end Writes

end Screen

namespace Board

/-- The screen shows each listed structure as its status says, at a location of its own. -/
structure Consistent (board : Board) : Prop where
  toggles : ∀ item ∈ board.items, item.blink.Toggles
  shows : ∀ item ∈ board.items, board.screen.video item.blink.cell = item.blink.shown
  distinct : (board.items.map fun item => item.blink.location).Nodup
  within : ∀ item ∈ board.items, item.blink.location.toNat ≤ 1999

/-- An add that copies a structure gives it a free place on the screen. -/
def Admits (board : Board) : Event → Prop
  | .ioctl helpers _ cmd => cmd = 0 → helpers.allocated ≠ none → helpers.uncopied = 0 →
      helpers.copied.location.toNat ≤ 1999 ∧
        ∀ item ∈ board.items, item.blink.location ≠ helpers.copied.location
  | .rtcTasklet => True

theorem retime_locations {items : List Listed} {address : Nat} {change : Blink → Blink}
    (keeps : ∀ blink, (change blink).location = blink.location) :
    (retime items address change).map (fun item => item.blink.location) =
      items.map fun item => item.blink.location := by
  rw [retime, List.map_map]
  refine List.map_congr_left fun item _ => ?_
  rw [Function.comp_apply]
  split_ifs
  · exact keeps item.blink
  · rfl

/-- The listed structures have locations of their own. -/
def Distinct (board : Board) : Prop := (board.items.map fun item => item.blink.location).Nodup

namespace Distinct

variable {board : Board}

theorem add (distinct : board.Distinct) (helpers : Helpers)
    (fresh : helpers.allocated ≠ none → helpers.uncopied = 0 →
      ∀ item ∈ board.items, item.blink.location ≠ helpers.copied.location) :
    (board.add helpers).Distinct := by
  rw [Board.add]
  cases allocated : helpers.allocated with
  | none => exact distinct
  | some address =>
      dsimp only
      split_ifs with failed
      · exact distinct
      · rw [not_or, not_not] at failed
        refine List.nodup_cons.2 ⟨fun member => ?_, distinct⟩
        obtain ⟨item, listed, same⟩ := List.mem_map.1 member
        exact fresh (by rw [allocated]; exact Option.some_ne_none _) failed.1 item listed same

theorem remove (distinct : board.Distinct) (location : UInt16) :
    (board.remove location).Distinct := by
  rw [Board.remove]
  cases first board.items location with
  | none => exact distinct
  | some item => exact (List.eraseP_sublist.map _).nodup distinct

theorem find (distinct : board.Distinct) (helpers : Helpers) (arg : BitVec 32) :
    (board.find helpers arg).Distinct := by
  rw [Board.find]
  by_cases null : arg = 0
  · rw [if_pos null]
    exact distinct
  · rw [if_neg null]
    cases first board.items helpers.userLocation with
    | none => exact distinct
    | some item => exact distinct

theorem sync (distinct : board.Distinct) (source target : UInt16) :
    (board.sync source target).Distinct := by
  rw [Board.sync]
  cases first board.items source with
  | none => exact distinct
  | some leader =>
      cases first board.items target with
      | none => exact distinct
      | some follower =>
          have same : (retime board.items follower.address leader.blink.follow).map
              (fun item => item.blink.location) = _ := retime_locations fun _ => rfl
          exact (congrArg List.Nodup same).mpr distinct

theorem tick (distinct : board.Distinct) : board.tick.Distinct := by
  have same : (board.tick.items.map fun item => item.blink.location) =
      board.items.map fun item => item.blink.location := by
    rw [Board.tick, List.map_map]
    exact List.map_congr_left fun item _ => item.blink.ticked_location
  rw [Distinct, same]
  exact distinct

theorem advance (distinct : board.Distinct) {event : Event} (admits : board.Admits event) :
    (board.advance event).Distinct := by
  cases event with
  | ioctl helpers arg cmd =>
      rw [Board.advance]
      split_ifs with invalid adds removes finds
      · exact distinct
      · exact distinct.add helpers fun some copied => (admits adds some copied).2
      · exact distinct.remove _
      · exact distinct.find helpers arg
      · exact distinct.sync _ _
  | rtcTasklet => exact distinct.tick

end Distinct

namespace Consistent

variable {board : Board}

theorem answer (consistent : board.Consistent) (result : Int) :
    (board.answer result).Consistent :=
  ⟨consistent.toggles, consistent.shows, consistent.distinct, consistent.within⟩

/-- Different locations have different characters. -/
theorem cell_ne {location : UInt16} {item : Listed}
    (other : item.blink.location ≠ location) : item.blink.cell ≠ 2 * location.toNat := by
  intro same
  exact other (UInt16.toNat.inj (Nat.eq_of_mul_eq_mul_left two_pos same))

theorem add (consistent : board.Consistent) (helpers : Helpers)
    (admits : helpers.allocated ≠ none → helpers.uncopied = 0 →
      helpers.copied.location.toNat ≤ 1999 ∧
        ∀ item ∈ board.items, item.blink.location ≠ helpers.copied.location) :
    (board.add helpers).Consistent := by
  rw [Board.add]
  cases allocated : helpers.allocated with
  | none => exact consistent.answer (-1)
  | some address =>
      dsimp only
      split_ifs with failed
      · exact consistent.answer (-1)
      · rw [not_or, not_not] at failed
        obtain ⟨within, fresh⟩ := admits (by rw [allocated]; exact Option.some_ne_none _) failed.1
        refine answer ⟨fun item member => ?_, fun item member => ?_, ?_, fun item member => ?_⟩ 0
        · rcases List.mem_cons.1 member with same | old
          · subst same
            exact .inr rfl
          · exact consistent.toggles item old
        · rcases List.mem_cons.1 member with same | old
          · subst same
            exact Function.update_self ..
          · rw [← consistent.shows item old]
            exact board.screen.draw_video_of_ne (cell_ne (fresh item old))
        · refine List.nodup_cons.2 ⟨fun member => ?_, consistent.distinct⟩
          obtain ⟨item, listed, same⟩ := List.mem_map.1 member
          exact fresh item listed same
        · rcases List.mem_cons.1 member with same | old
          · subst same
            exact within
          · exact consistent.within item old

theorem remove (consistent : board.Consistent) (location : UInt16) :
    (board.remove location).Consistent := by
  rw [Board.remove]
  cases first board.items location with
  | none => exact consistent.answer (-1)
  | some item =>
      refine answer ⟨fun item member => ?_, fun item member => ?_, ?_, fun item member => ?_⟩ 0
      · exact consistent.toggles item (List.mem_of_mem_eraseP member)
      · exact consistent.shows item (List.mem_of_mem_eraseP member)
      · exact (List.eraseP_sublist.map _).nodup consistent.distinct
      · exact consistent.within item (List.mem_of_mem_eraseP member)

theorem find (consistent : board.Consistent) (helpers : Helpers) (arg : BitVec 32) :
    (board.find helpers arg).Consistent := by
  rw [Board.find]
  by_cases null : arg = 0
  · rw [if_pos null]
    exact consistent.answer (-1)
  · rw [if_neg null]
    cases first board.items helpers.userLocation with
    | none => exact consistent.answer (-1)
    | some item => exact consistent.answer _

/-- A sync keeps the screen because it draws the structure whose timing it changes. -/
theorem sync (consistent : board.Consistent) (unique : (addresses board.items).Nodup)
    (source target : UInt16) : (board.sync source target).Consistent := by
  rw [Board.sync]
  cases hit : first board.items source with
  | none => exact consistent.answer (-1)
  | some leader =>
      cases second : first board.items target with
      | none => exact consistent.answer (-1)
      | some follower =>
          have leads : leader ∈ board.items := (first_some hit).1
          have follows : follower ∈ board.items := (first_some second).1
          have own (item : Listed) (member : item ∈ board.items)
              (same : item.address = follower.address) : item = follower :=
            List.inj_on_of_nodup_map unique member follows same
          refine answer ⟨fun item member => ?_, fun item member => ?_, ?_, fun item member => ?_⟩ 0
          · obtain ⟨old, listed, rfl⟩ := List.mem_map.1 member
            split_ifs with same
            · exact consistent.toggles leader leads
            · exact consistent.toggles old listed
          · obtain ⟨old, listed, rfl⟩ := List.mem_map.1 member
            split_ifs with same
            · rw [own old listed same]
              exact Function.update_self ..
            · have apart : old.blink.location ≠ follower.blink.location := fun equal =>
                same (congrArg Listed.address
                  (List.inj_on_of_nodup_map consistent.distinct listed follows equal))
              rw [← consistent.shows old listed]
              exact board.screen.draw_video_of_ne (cell_ne apart)
          · have same : (retime board.items follower.address leader.blink.follow).map
                (fun item => item.blink.location) = _ := retime_locations fun _ => rfl
            exact same ▸ consistent.distinct
          · obtain ⟨old, listed, rfl⟩ := List.mem_map.1 member
            split_ifs with same
            · exact consistent.within old listed
            · exact consistent.within old listed

theorem tick (consistent : board.Consistent) : board.tick.Consistent where
  toggles item member := by
    obtain ⟨old, listed, rfl⟩ := List.mem_map.1 member
    exact Blink.ticked_toggles (consistent.toggles old listed)
  shows item member := by
    obtain ⟨old, listed, rfl⟩ := List.mem_map.1 member
    dsimp only
    rw [Blink.ticked_cell]
    exact board.screen.tick_video consistent.distinct consistent.shows old listed
  distinct := Distinct.tick consistent.distinct
  within item member := by
    obtain ⟨old, listed, rfl⟩ := List.mem_map.1 member
    dsimp only
    rw [Blink.ticked_location]
    exact consistent.within old listed

/-- Each event keeps the screen true. -/
theorem advance (consistent : board.Consistent) (unique : (addresses board.items).Nodup)
    (event : Event) (admits : board.Admits event) : (board.advance event).Consistent := by
  cases event with
  | ioctl helpers arg cmd =>
      rw [Board.advance]
      split_ifs with invalid adds removes finds
      · exact consistent.answer (-1)
      · exact consistent.add helpers (admits adds)
      · exact consistent.remove _
      · exact consistent.find helpers arg
      · exact consistent.sync unique _ _
  | rtcTasklet => exact consistent.tick

theorem start (video : Nat → UInt8) : (Board.start video).Consistent :=
  ⟨fun _ member => absurd member List.not_mem_nil, fun _ member => absurd member List.not_mem_nil,
    List.nodup_nil, fun _ member => absurd member List.not_mem_nil⟩

end Consistent

/-- The structure whose character an event may write: the one that it adds, the one that it syncs
to, or one whose status it toggles. -/
def Draws (board : Board) (event : Event) (offset : Nat) : Prop :=
  ∃ item ∈ (board.advance event).items, offset = item.blink.cell ∧
    match event with
    | .ioctl _ arg cmd => (cmd = 0 ∧ item.address ∉ addresses board.items) ∨
        (cmd = 3 ∧ item.blink.location = ⟨arg.setWidth 16⟩)
    | .rtcTasklet => ∃ old ∈ board.items, old.address = item.address ∧
        old.blink.status ≠ item.blink.status

theorem remove_screen (board : Board) (location : UInt16) :
    (board.remove location).screen = board.screen := by
  rw [remove]
  cases first board.items location with
  | none => rfl
  | some item => rfl

theorem find_screen (board : Board) (helpers : Helpers) (arg : BitVec 32) :
    (board.find helpers arg).screen = board.screen := by
  rw [find]
  by_cases null : arg = 0
  · rw [if_pos null]
    rfl
  · rw [if_neg null]
    cases first board.items helpers.userLocation with
    | none => rfl
    | some item => rfl

theorem advance_add (board : Board) (helpers : Helpers) (arg : BitVec 32) :
    board.advance (.ioctl helpers arg 0) = board.add helpers := rfl

theorem advance_sync (board : Board) (helpers : Helpers) (arg : BitVec 32) :
    board.advance (.ioctl helpers arg 3) =
      board.sync ⟨(arg >>> 16).setWidth 16⟩ ⟨arg.setWidth 16⟩ := rfl

theorem add_writes {board : Board} {helpers : Helpers} {arg cmd : BitVec 32} (adds : cmd = 0)
    (unique : (addresses (board.add helpers).items).Nodup) : Screen.Writes board.screen
      (board.add helpers).screen (board.Draws (.ioctl helpers arg cmd)) := by
  subst adds
  rw [add] at unique ⊢
  cases allocated : helpers.allocated with
  | none => exact .refl ..
  | some address =>
      rw [allocated] at unique
      dsimp only at unique ⊢
      by_cases failed : helpers.uncopied ≠ 0 ∨ 1999 < helpers.copied.location.toNat
      · rw [if_pos failed]
        exact .refl ..
      · rw [if_neg failed] at unique ⊢
        refine .draw board.screen _ ⟨⟨address, helpers.copied.toBlink.lit⟩, ?_, rfl, .inl ⟨rfl, ?_⟩⟩
        · rw [advance_add, add, allocated]
          dsimp only
          rw [if_neg failed]
          exact List.mem_cons_self
        · exact (List.nodup_cons.1 unique).1

theorem sync_writes {board : Board} {helpers : Helpers} {arg cmd : BitVec 32} (syncs : cmd = 3) :
    Screen.Writes board.screen (board.sync ⟨(arg >>> 16).setWidth 16⟩ ⟨arg.setWidth 16⟩).screen
      (board.Draws (.ioctl helpers arg cmd)) := by
  subst syncs
  rw [sync]
  cases hit : first board.items ⟨(arg >>> 16).setWidth 16⟩ with
  | none => exact .refl ..
  | some leader =>
      cases second : first board.items ⟨arg.setWidth 16⟩ with
      | none => exact .refl ..
      | some follower =>
          have follows : follower ∈ board.items := (first_some second).1
          refine .draw board.screen _
            ⟨{ follower with blink := leader.blink.follow follower.blink }, ?_, rfl, .inr ⟨rfl, ?_⟩⟩
          · rw [advance_sync, sync, hit, second]
            exact List.mem_map.2 ⟨follower, follows, if_pos rfl⟩
          · exact (first_some second).2

/-- Each event writes only characters of its own structures. -/
theorem advance_writes {board : Board} (event : Event)
    (unique : (addresses (board.advance event).items).Nodup) :
    Screen.Writes board.screen (board.advance event).screen (board.Draws event) := by
  cases event with
  | ioctl helpers arg cmd =>
      rw [Board.advance] at unique ⊢
      by_cases invalid : 3 < cmd.toNat
      · rw [if_pos invalid]
        exact .refl ..
      · rw [if_neg invalid] at unique ⊢
        by_cases adds : cmd = 0
        · rw [if_pos adds] at unique ⊢
          exact add_writes adds unique
        · rw [if_neg adds] at unique ⊢
          by_cases removes : cmd = 1
          · rw [if_pos removes, remove_screen]
            exact .refl ..
          · rw [if_neg removes] at unique ⊢
            by_cases finds : cmd = 2
            · rw [if_pos finds, find_screen]
              exact .refl ..
            · rw [if_neg finds]
              exact sync_writes (by bv_omega)
  | rtcTasklet =>
      refine Screen.Writes.tick board.screen board.items fun item member expires => ?_
      refine ⟨_, List.mem_map_of_mem member, item.blink.ticked_cell.symm, item, member, rfl, ?_⟩
      exact (Blink.ticked_status expires).symm

end Board

/-- The address is on the list of the driver. -/
def Driver.Lists (driver : Driver) (address : Nat) : Prop :=
  ∃ nodes, Links driver.link 0 driver.listHead nodes ∧ address ∈ nodes

theorem Spells.lists_iff {driver : Driver} {items : List Listed} (spells : Spells driver items)
    (address : Nat) : driver.Lists address ↔ ∃ item ∈ items, item.address = address := by
  rw [← List.mem_map]
  constructor
  · rintro ⟨nodes, linked, member⟩
    rwa [linked.unique spells.linked] at member
  · exact fun member => ⟨addresses items, spells.linked, member⟩

/-- An add that copies a structure gives it a place on the screen that no listed node has. -/
def Admissible (system : System) : Event → Prop
  | .ioctl helpers _ cmd => cmd = 0 → helpers.allocated ≠ none → helpers.uncopied = 0 →
      helpers.copied.location.toNat ≤ 1999 ∧ ∀ address, system.driver.Lists address →
        (system.driver.node address).location ≠ helpers.copied.location
  | .rtcTasklet => True

/-- Each listed node is on or off, and its character on the screen agrees with its status. -/
def ScreenTrue (driver : Driver) : Prop :=
  ∀ address, driver.Lists address →
    ((driver.node address).status = 1 ∧ driver.video (2 * (driver.node address).location.toNat) =
        (driver.node address).onChar) ∨
      ((driver.node address).status = 0 ∧ driver.video (2 * (driver.node address).location.toNat) =
        (driver.node address).offChar)

/-- The node at the address is the one that the event adds, the one that it syncs to, or one whose
status it toggles. -/
def Event.Owns (event : Event) (before after : Driver) (address : Nat) : Prop :=
  after.Lists address ∧
    match event with
    | .ioctl _ arg cmd => (cmd = 0 ∧ ¬ before.Lists address) ∨
        (cmd = 3 ∧ (after.node address).location = ⟨arg.setWidth 16⟩)
    | .rtcTasklet => (before.node address).status ≠ (after.node address).status

/-- All writes of an event are at characters on the screen that belong to its own nodes. -/
def WritesOwn (event : Event) (before after : Driver) : Prop :=
  Screen.Writes before.screen after.screen fun offset => offset % 2 = 0 ∧ offset < 4000 ∧
    ∃ address, event.Owns before after address ∧
      offset = 2 * (after.node address).location.toNat

namespace Refines

variable {system : System} {board : Board}

theorem admits (refines : Refines system board) (event : Event)
    (admissible : Admissible system event) : board.Admits event := by
  cases event with
  | ioctl helpers arg cmd =>
      intro adds allocated copied
      obtain ⟨within, fresh⟩ := admissible adds allocated copied
      refine ⟨within, fun item member => ?_⟩
      rw [← refines.spells.held item member]
      exact fresh item.address ((refines.spells.lists_iff _).2 ⟨item, member, rfl⟩)
  | rtcTasklet => trivial

theorem screenTrue (refines : Refines system board) (consistent : board.Consistent) :
    ScreenTrue system.driver := by
  intro address listed
  obtain ⟨item, member, rfl⟩ := (refines.spells.lists_iff address).1 listed
  have shows := consistent.shows item member
  rw [← refines.screen, ← refines.spells.held item member, Blink.shown] at shows
  have toggles := consistent.toggles item member
  rw [← refines.spells.held item member] at toggles
  rcases toggles with off | lit
  · rw [if_pos off] at shows
    exact .inr ⟨off, shows⟩
  · rw [if_neg (lit ▸ by decide)] at shows
    exact .inl ⟨lit, shows⟩

/-- The writes of the abstract step are the writes of the driver. -/
theorem writesOwn (refines : Refines system board) {event : Event} {next : System}
    (after : Refines next (board.advance event)) (consistent : (board.advance event).Consistent) :
    WritesOwn event system.driver next.driver := by
  have writes := Board.advance_writes event after.spells.nodup
  rw [← refines.screen, ← after.screen] at writes
  refine writes.mono fun offset draws => ?_
  obtain ⟨item, member, rfl, owns⟩ := draws
  have within := consistent.within item member
  have held := after.spells.held item member
  have listed : next.driver.Lists item.address :=
    (after.spells.lists_iff _).2 ⟨item, member, rfl⟩
  refine ⟨Nat.mul_mod_right .., ?_, item.address, ⟨listed, ?_⟩, ?_⟩
  · rw [Blink.cell]
    omega
  · cases event with
    | ioctl helpers arg cmd =>
        rcases owns with ⟨adds, fresh⟩ | ⟨syncs, target⟩
        · refine .inl ⟨adds, fun old => fresh ?_⟩
          exact List.mem_map.2 ((refines.spells.lists_iff _).1 old)
        · exact .inr ⟨syncs, (congrArg Blink.location held).trans target⟩
    | rtcTasklet =>
        obtain ⟨old, before, same, toggled⟩ := owns
        have past := refines.spells.held old before
        dsimp only
        rw [← held, ← past, same] at toggled
        exact toggled
  · rw [Blink.cell, ← held]

theorem advance_admits {event : Event} {next : System} (refines : Refines system board)
    (admits : board.Admits event) (stepped : Mp1.step system event = .ok next) :
    Refines next (board.advance event) := by
  refine preserved system event next board refines ?_ stepped
  cases event with
  | ioctl helpers arg cmd => exact fun adds allocated copied => (admits adds allocated copied).1
  | rtcTasklet => trivial

/-- An admissible step refines its abstract form on a consistent board. -/
theorem advance {event : Event} {next : System} (refines : Refines system board)
    (consistent : board.Consistent) (admissible : Admissible system event)
    (stepped : Mp1.step system event = .ok next) :
    Refines next (board.advance event) ∧ (board.advance event).Consistent := by
  have admits := refines.admits event admissible
  exact ⟨refines.advance_admits admits stepped,
    consistent.advance refines.spells.nodup event admits⟩

end Refines

/-- After every operation of an admissible run the screen agrees with the list, and the operation
has written only its own characters. -/
theorem screen_consistent (node : Nat → BlinkStruct) (video : Nat → UInt8) (events : List Event)
    (event : Event) (system next : System)
    (allowed : Along Admissible step (start node video) events)
    (reached : run step (start node video) events = .ok system)
    (admissible : Admissible system event) (stepped : step system event = .ok next) :
    ScreenTrue next.driver ∧ WritesOwn event system.driver next.driver := by
  have initial : Refines (start node video) (Board.start video) ∧ (Board.start video).Consistent :=
    ⟨Refines.start node video, Board.Consistent.start video⟩
  obtain ⟨refines, consistent⟩ := run_simulates_along
    (fun system board => Refines system board ∧ board.Consistent) Board.advance
    (fun system event next board related admissible stepped =>
      related.1.advance related.2 admissible stepped) initial allowed reached
  obtain ⟨after, kept⟩ := refines.advance consistent admissible stepped
  exact ⟨after.screenTrue kept, refines.writesOwn after kept⟩

/-- One structure is added and toggles at its second tick. -/
theorem screen_consistent_sample : ∃ system next : System,
    ScreenTrue next.driver ∧ WritesOwn .rtcTasklet system.driver next.driver ∧
      system.driver.video 10 = 65 ∧ next.driver.video 10 = 66 := by
  have admissible : Admissible (start (fun _ => unsetNode) fun _ => 0) (sampleAdd 16 5) := by
    intro _ _ _
    refine ⟨by decide, ?_⟩
    rintro address ⟨nodes, linked, member⟩
    cases nodes with
    | nil => exact absurd member List.not_mem_nil
    | cons first rest => exact absurd linked.1.symm linked.2.1
  have consistent := screen_consistent (fun _ => unsetNode) (fun _ => 0)
    [sampleAdd 16 5, .rtcTasklet] .rtcTasklet _ _
    ⟨admissible, fun _ _ => ⟨trivial, fun _ _ => trivial⟩⟩ rfl trivial rfl
  exact ⟨_, _, consistent.1, consistent.2, rfl, rfl⟩

end ComputerSystems.Mp1
