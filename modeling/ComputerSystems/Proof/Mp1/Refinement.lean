import ComputerSystems.Construction.Mp1.Board
import ComputerSystems.Library.Links
import ComputerSystems.Library.Run

namespace ComputerSystems.Mp1

open Library

def addresses (items : List Listed) : List Nat := items.map Listed.address

def Driver.link (driver : Driver) (address : Nat) : Nat := (driver.node address).next

def Driver.screen (driver : Driver) : Screen := ⟨driver.video, driver.pokes⟩

/-- The nodes from the list head spell the listed structures. Exactly they are in use, and all
other memory is freed as often as it was allocated. -/
structure Spells (driver : Driver) (items : List Listed) : Prop where
  linked : Links driver.link 0 driver.listHead (addresses items)
  held : ∀ item ∈ items, (driver.node item.address).toBlink = item.blink
  live : driver.live.Perm (addresses items)
  freed : ∀ address, driver.history.count (.malloc address) =
    driver.history.count (.free address) + (addresses items).count address

/-- The driver holds the abstract list, its screen and its results. -/
structure Refines (system : System) (board : Board) : Prop where
  spells : Spells system.driver board.items
  screen : system.driver.screen = board.screen
  results : system.results = board.results

namespace Blink

@[simp] theorem lit_shown (blink : Blink) : blink.lit.shown = blink.onChar :=
  if_neg (show (1 : UInt16) ≠ 0 by decide)

@[simp] theorem dark_shown (blink : Blink) : blink.dark.shown = blink.offChar := if_pos rfl

end Blink

/-- A structure that an add copies whole has a place on the screen. -/
def Event.Within : Event → Prop
  | .ioctl helpers _ cmd => cmd = 0 → helpers.allocated ≠ none → helpers.uncopied = 0 →
      helpers.copied.location.toNat ≤ 1999
  | .rtcTasklet => True

/-- The memory that an add gets is not in use. -/
def Event.Fresh (event : Event) (driver : Driver) : Prop :=
  match event with
  | .ioctl helpers _ cmd => cmd = 0 → ∀ address, helpers.allocated = some address →
      address ≠ 0 ∧ address ∉ driver.live
  | .rtcTasklet => True

/-- The pointer that stands for an item or for none. -/
def pointer (found : Option Listed) : Nat := found.elim 0 Listed.address

namespace Driver

variable (driver : Driver) (offset : Nat) (char : UInt8)

@[simp] theorem mp1Poke_node : (driver.mp1Poke offset char).node = driver.node := rfl

@[simp] theorem mp1Poke_link : (driver.mp1Poke offset char).link = driver.link := rfl

@[simp] theorem mp1Poke_listHead : (driver.mp1Poke offset char).listHead = driver.listHead := rfl

@[simp] theorem mp1Poke_live : (driver.mp1Poke offset char).live = driver.live := rfl

@[simp] theorem mp1Poke_history : (driver.mp1Poke offset char).history = driver.history := rfl

variable {driver}

theorem read_live {address : Nat} (live : address ∈ driver.live) :
    driver.read address = .ok (driver.node address) := by
  rw [read, if_pos live]

theorem write_live {address : Nat} (live : address ∈ driver.live)
    (change : BlinkStruct → BlinkStruct) :
    driver.write address change = .ok { driver with
      node := Function.update driver.node address (change (driver.node address)) } := by
  rw [write, if_pos live]

theorem mp1Free_live {address : Nat} (live : address ∈ driver.live) :
    driver.mp1Free address = .ok { driver with
      live := driver.live.erase address
      history := .free address :: driver.history } := by
  rw [mp1Free, if_pos live]

end Driver

/-- The search walks the listed structures in order. -/
theorem travel_eq {driver : Driver} {location : UInt16} {fuel address : Nat}
    {items : List Listed} (linked : Links driver.link 0 address (addresses items))
    (held : ∀ item ∈ items, (driver.node item.address).toBlink = item.blink)
    (live : ∀ item ∈ items, item.address ∈ driver.live) (enough : items.length < fuel) :
    travel driver location fuel address = .ok (pointer (Board.first items location)) := by
  induction items generalizing fuel address with
  | nil =>
      have done : address = 0 := linked
      cases fuel with
      | zero => exact absurd enough (Nat.not_lt_zero _)
      | succ fuel => rw [travel, if_pos done]; rfl
  | cons item rest ih =>
      have here : address = item.address := linked.1
      have real : item.address ≠ 0 := linked.2.1
      subst here
      cases fuel with
      | zero => exact absurd enough (Nat.not_lt_zero _)
      | succ fuel =>
          have same : (driver.node item.address).location = item.blink.location :=
            congrArg Blink.location (held item List.mem_cons_self)
          rw [travel, if_neg real, Driver.read_live (live item List.mem_cons_self)]
          simp only [same]
          by_cases hit : item.blink.location = location
          · rw [if_pos hit, Board.first, List.find?_cons_of_pos (by simpa using hit)]
            rfl
          · rw [if_neg hit, Board.first, List.find?_cons_of_neg (by simpa using hit)]
            exact ih linked.2.2 (fun other member => held other (List.mem_cons_of_mem _ member))
              (fun other member => live other (List.mem_cons_of_mem _ member))
              (Nat.lt_of_succ_lt_succ enough)

theorem Board.first_some {items : List Listed} {location : UInt16} {item : Listed}
    (hit : first items location = some item) :
    item ∈ items ∧ item.blink.location = location := by
  refine ⟨List.mem_of_find?_eq_some hit, ?_⟩
  exact of_decide_eq_true
    (List.find?_some (p := fun item : Listed => item.blink.location = location) hit)

/-- The deletion of the first structure with a location splits the list there. -/
theorem Board.first_split {items : List Listed} {location : UInt16} {item : Listed}
    (hit : first items location = some item) : ∃ front rest, items = front ++ item :: rest ∧
      (items.eraseP fun item => item.blink.location = location) = front ++ rest := by
  obtain ⟨located, front, rest, split, earlier⟩ := List.find?_eq_some_iff_append.1 hit
  refine ⟨front, rest, split, ?_⟩
  rw [split, List.eraseP_append_right _ fun other before => by simpa using earlier other before]
  exact congrArg (front ++ ·) (List.eraseP_cons_of_pos located)

/-- The second loop of a remove ends at the node in front of its target. -/
theorem remTrav_eq {driver : Driver} {fuel address previous target : Nat} {front rest : List Nat}
    (linked : Links driver.link 0 address (front ++ previous :: target :: rest))
    (live : ∀ node ∈ front ++ previous :: target :: rest, node ∈ driver.live)
    (enough : front.length < fuel) : remTrav driver target fuel address = .ok previous := by
  induction front generalizing fuel address with
  | nil =>
      have here : address = previous := linked.1
      have next : (driver.node previous).next = target := linked.2.2.1
      subst here
      cases fuel with
      | zero => exact absurd enough (Nat.not_lt_zero _)
      | succ fuel =>
          rw [remTrav, Driver.read_live (live _ List.mem_cons_self)]
          exact if_pos next
  | cons head front ih =>
      have here : address = head := linked.1
      have next : (driver.node head).next ≠ target := Links.first_ne linked.2.2
      subst here
      cases fuel with
      | zero => exact absurd enough (Nat.not_lt_zero _)
      | succ fuel =>
          rw [remTrav, Driver.read_live (live _ List.mem_cons_self)]
          simp only [if_neg next]
          exact ih linked.2.2 (fun node member => live node (List.mem_cons_of_mem _ member))
            (Nat.lt_of_succ_lt_succ enough)

theorem addresses_retime (items : List Listed) (address : Nat) (change : Blink → Blink) :
    addresses (Board.retime items address change) = addresses items := by
  rw [addresses, addresses, Board.retime, List.map_map]
  refine List.map_congr_left fun item _ => ?_
  rw [Function.comp_apply, apply_ite Listed.address, ite_self]

namespace Spells

variable {driver : Driver} {items : List Listed}

theorem mem_live (spells : Spells driver items) {item : Listed} (member : item ∈ items) :
    item.address ∈ driver.live :=
  spells.live.mem_iff.2 (List.mem_map_of_mem member)

theorem nodup (spells : Spells driver items) : (addresses items).Nodup := spells.linked.nodup

theorem real (spells : Spells driver items) {item : Listed} (member : item ∈ items) :
    item.address ≠ 0 := by
  intro null
  exact spells.linked.nil_notMem (null ▸ List.mem_map_of_mem member)

theorem length_lt_fuel (spells : Spells driver items) : items.length < driver.fuel := by
  have same := spells.live.length_eq
  rw [addresses, List.length_map] at same
  rw [Driver.fuel, same]
  exact Nat.lt_succ_self _

theorem mp1Search_eq (spells : Spells driver items) (location : UInt16) :
    mp1Search driver location = .ok (pointer (Board.first items location)) :=
  travel_eq spells.linked spells.held (fun _ member => spells.mem_live member)
    spells.length_lt_fuel

/-- A change of the fields of listed structures keeps the list. -/
theorem rewrite (spells : Spells driver items) {after : Driver} {others : List Listed}
    (head : after.listHead = driver.listHead) (live : after.live = driver.live)
    (history : after.history = driver.history) (link : after.link = driver.link)
    (same : addresses others = addresses items)
    (held : ∀ item ∈ others, (after.node item.address).toBlink = item.blink) :
    Spells after others where
  linked := by rw [link, head, same]; exact spells.linked
  held := held
  live := by rw [live, same]; exact spells.live
  freed := by rw [history, same]; exact spells.freed

/-- A change of the timing of one listed structure keeps the list. -/
theorem retime (spells : Spells driver items) {after : Driver} {address : Nat}
    {change : Blink → Blink} (head : after.listHead = driver.listHead)
    (live : after.live = driver.live) (history : after.history = driver.history)
    (node : after.node = Function.update driver.node address
      { driver.node address with toBlink := change (driver.node address).toBlink }) :
    Spells after (Board.retime items address change) := by
  refine spells.rewrite head live history ?_ ?_ ?_
  · have links := Function.comp_update BlinkStruct.next driver.node address
      { driver.node address with toBlink := change (driver.node address).toBlink }
    rw [← node] at links
    exact links.trans (Function.update_eq_self ..)
  · exact addresses_retime ..
  · intro item member
    obtain ⟨old, listed, rfl⟩ := List.mem_map.1 member
    rw [node]
    by_cases same : old.address = address
    · subst same
      simp only [if_pos, Function.update_self, spells.held old listed]
    · simp only [if_neg same, Function.update_of_ne same]
      exact spells.held old listed

/-- A change of memory that is not listed keeps the list. -/
theorem frame (spells : Spells driver items) {after : Driver} {address : Nat}
    (fresh : address ∉ addresses items) (head : after.listHead = driver.listHead)
    (live : after.live = driver.live)
    (history : ∀ event, after.history.count (.malloc event) + driver.history.count (.free event) =
      driver.history.count (.malloc event) + after.history.count (.free event))
    (node : ∀ other ≠ address, after.node other = driver.node other) : Spells after items where
  linked := by
    rw [head]
    refine spells.linked.congr fun other member => congrArg BlinkStruct.next (node other ?_)
    rintro rfl
    exact fresh member
  held item member := by
    rw [node item.address fun same => fresh (same ▸ List.mem_map_of_mem member)]
    exact spells.held item member
  live := by rw [live]; exact spells.live
  freed other := by
    have before := spells.freed other
    have counts := history other
    omega

/-- A new node in front of the list pushes its structure. -/
theorem push (spells : Spells driver items) {after : Driver} {item : Listed}
    (fresh : item.address ∉ addresses items) (real : item.address ≠ 0)
    (head : after.listHead = item.address) (live : after.live = item.address :: driver.live)
    (history : after.history = .malloc item.address :: driver.history)
    (link : after.link = Function.update driver.link item.address driver.listHead)
    (own : (after.node item.address).toBlink = item.blink)
    (node : ∀ other ≠ item.address, after.node other = driver.node other) :
    Spells after (item :: items) where
  linked := by
    rw [link, head]
    exact spells.linked.push fresh real
  held other member := by
    rcases List.mem_cons.1 member with same | old
    · rw [same, own]
    · rw [node other.address fun same => fresh (same ▸ List.mem_map_of_mem old)]
      exact spells.held other old
  live := by
    rw [live]
    exact spells.live.cons item.address
  freed other := by
    have before := spells.freed other
    rw [history, addresses, List.map_cons, List.count_cons, List.count_cons, List.count_cons]
    rw [addresses] at before
    by_cases same : item.address = other
    · subst same
      simp only [beq_self_eq_true, if_pos, reduceCtorEq, beq_iff_eq, if_false]
      omega
    · simp only [beq_iff_eq, same, reduceCtorEq, HeapEvent.malloc.injEq, if_false]
      omega

/-- A freed node that the links skip leaves the list. -/
theorem drop {item : Listed} {front rest : List Listed}
    (spells : Spells driver (front ++ item :: rest)) {after : Driver}
    (linked : Links after.link 0 after.listHead (addresses (front ++ rest)))
    (node : ∀ address, (after.node address).toBlink = (driver.node address).toBlink)
    (live : after.live = driver.live.erase item.address)
    (history : after.history = .free item.address :: driver.history) :
    Spells after (front ++ rest) where
  linked := linked
  held other member := by
    rw [node]
    refine spells.held other (List.mem_append.2 ?_)
    exact (List.mem_append.1 member).imp id (List.mem_cons_of_mem item)
  live := by
    have erased := spells.live.erase item.address
    have unique := spells.nodup
    rw [addresses, List.map_append, List.map_cons] at erased unique
    rw [live, addresses, List.map_append]
    refine erased.trans ((List.perm_middle.erase item.address).trans ?_)
    rw [List.erase_cons_head]
  freed other := by
    have before := spells.freed other
    rw [addresses, List.map_append, List.map_cons, List.count_append, List.count_cons] at before
    rw [history, addresses, List.map_append, List.count_append, List.count_cons, List.count_cons]
    by_cases same : item.address = other
    · subst same
      simp only [beq_self_eq_true, if_pos, reduceCtorEq, beq_iff_eq, if_false] at before ⊢
      omega
    · simp only [beq_iff_eq, same, reduceCtorEq, HeapEvent.free.injEq, if_false] at before ⊢
      omega

end Spells

/-- A step keeps the refinement, and only an allocator that breaks its promise stops it. -/
def Outcome (board : Board) : Except Fault System → Prop
  | .ok system => Refines system board
  | .error fault => fault = .badAllocator

/-- A call answers with its result. -/
def answered (results : List Int) (called : Except Fault (Int × Driver)) : Except Fault System :=
  called.map fun called => ⟨called.2, called.1 :: results⟩

/-- The node after one tick. -/
def BlinkStruct.ticked (node : BlinkStruct) : BlinkStruct :=
  { node with toBlink := node.toBlink.ticked }

/-- The screen after the tick of one structure. -/
def Screen.tickOne (screen : Screen) (blink : Blink) : Screen :=
  if blink.expires then screen.draw blink.ticked else screen

/-- One round of the loop ticks one node. -/
theorem tickNode_eq {driver : Driver} {address : Nat} (live : address ∈ driver.live) :
    ∃ after, tickNode address (driver.node address) driver = .ok after ∧
      after.listHead = driver.listHead ∧ after.live = driver.live ∧
      after.history = driver.history ∧
      after.node = Function.update driver.node address (driver.node address).ticked ∧
      after.screen = driver.screen.tickOne (driver.node address).toBlink := by
  rw [tickNode, Driver.write_live live]
  simp only
  by_cases expired : (driver.node address).countdown - 1 = 0
  · have expires : (driver.node address).toBlink.expires = true := decide_eq_true expired
    rw [if_neg (not_not.2 expired), BlinkStruct.ticked, Blink.ticked, Screen.tickOne,
      if_pos expires, if_pos expires, Blink.ticked, if_pos expires]
    by_cases off : (driver.node address).status = 0
    · rw [if_neg (not_not.2 off), if_pos off, Driver.write, if_pos live]
      refine ⟨_, rfl, rfl, rfl, rfl, ?_, ?_⟩
      · simp [Blink.lit]
      · rw [Screen.draw, Blink.lit_shown]
        rfl
    · rw [if_pos off, if_neg off, Driver.write, if_pos live]
      refine ⟨_, rfl, rfl, rfl, rfl, ?_, ?_⟩
      · simp [Blink.dark]
      · rw [Screen.draw, Blink.dark_shown]
        rfl
  · have runs : ¬ (driver.node address).toBlink.expires = true := fun expires =>
      expired (of_decide_eq_true expires)
    rw [if_pos expired, BlinkStruct.ticked, Blink.ticked, Screen.tickOne, if_neg runs, if_neg runs]
    exact ⟨_, rfl, rfl, rfl, rfl, rfl, rfl⟩

/-- The loop of the tasklet ticks the structures that it walks over and nothing else. -/
theorem traverse_eq {driver : Driver} {fuel address : Nat} {items : List Listed}
    (linked : Links driver.link 0 address (addresses items))
    (held : ∀ item ∈ items, (driver.node item.address).toBlink = item.blink)
    (live : ∀ item ∈ items, item.address ∈ driver.live) (enough : items.length < fuel) :
    ∃ after, traverse fuel address driver = .ok after ∧
      after.listHead = driver.listHead ∧ after.live = driver.live ∧
      after.history = driver.history ∧ after.link = driver.link ∧
      (∀ other ∉ addresses items, after.node other = driver.node other) ∧
      (∀ item ∈ items, (after.node item.address).toBlink = item.blink.ticked) ∧
      after.screen = driver.screen.tick items := by
  induction items generalizing fuel address driver with
  | nil =>
      have done : address = 0 := linked
      cases fuel with
      | zero => exact absurd enough (Nat.not_lt_zero _)
      | succ fuel =>
          refine ⟨driver, ?_, rfl, rfl, rfl, rfl, fun _ _ => rfl, fun _ member => ?_, rfl⟩
          · rw [traverse, if_pos done]
          · cases member
  | cons item rest ih =>
      have here : address = item.address := linked.1
      have real : item.address ≠ 0 := linked.2.1
      have unique := linked.nodup
      rw [addresses, List.map_cons, List.nodup_cons] at unique
      subst here
      cases fuel with
      | zero => exact absurd enough (Nat.not_lt_zero _)
      | succ fuel =>
          have own := held item List.mem_cons_self
          obtain ⟨middle, ticked, head, alive, history, node, screen⟩ :=
            tickNode_eq (live item List.mem_cons_self)
          have link : middle.link = driver.link := by
            have links := Function.comp_update BlinkStruct.next driver.node item.address
              (driver.node item.address).ticked
            rw [← node] at links
            exact links.trans (Function.update_eq_self ..)
          have apart : ∀ other ∈ rest, middle.node other.address = driver.node other.address := by
            intro other member
            rw [node, Function.update_of_ne]
            intro same
            exact unique.1 (same ▸ List.mem_map_of_mem member)
          obtain ⟨after, walked, heads, lasting, histories, links, frame, fields, screens⟩ :=
            ih (link ▸ linked.2.2)
              (fun other member => by
                rw [apart other member]
                exact held other (List.mem_cons_of_mem item member))
              (fun other member => alive ▸ live other (List.mem_cons_of_mem item member))
              (Nat.lt_of_succ_lt_succ enough)
          refine ⟨after, ?_, heads.trans head, lasting.trans alive, histories.trans history,
            links.trans link, fun other unlisted => ?_, fun other member => ?_, ?_⟩
          · rw [traverse, if_neg real, Driver.read_live (live item List.mem_cons_self)]
            simp only
            rw [ticked]
            rw [link] at walked
            exact walked
          · rw [addresses, List.map_cons, List.mem_cons, not_or] at unlisted
            rw [frame other unlisted.2, node, Function.update_of_ne unlisted.1]
          · rcases List.mem_cons.1 member with same | later
            · rw [same, frame item.address unique.1, node, Function.update_self, ← own]
              rfl
            · exact fields other later
          · rw [screens, screen, own]
            rfl

namespace Spells

variable {driver : Driver} {items : List Listed}

/-- The tasklet ticks the listed structures. -/
theorem tick (spells : Spells driver items) : ∃ after, mp1RtcTasklet driver = .ok after ∧
    Spells after (items.map fun item => { item with blink := item.blink.ticked }) ∧
    after.screen = driver.screen.tick items := by
  obtain ⟨after, walked, head, live, history, link, _, fields, screen⟩ :=
    traverse_eq spells.linked spells.held (fun _ member => spells.mem_live member)
      spells.length_lt_fuel
  refine ⟨after, walked, spells.rewrite head live history link ?_ ?_, screen⟩
  · rw [addresses, addresses, List.map_map]
    rfl
  · intro item member
    obtain ⟨old, listed, rfl⟩ := List.mem_map.1 member
    exact fields old listed

end Spells

namespace Refines

variable {driver : Driver} {results : List Int} {board : Board}

/-- A call that changes nothing only answers. -/
theorem answer (refines : Refines ⟨driver, results⟩ board) (result : Int) :
    Refines ⟨driver, result :: results⟩ (board.answer result) :=
  ⟨refines.spells, refines.screen, congrArg (result :: ·) refines.results⟩

/-- The add refines its abstract form when the memory that it gets is not in use, and no location
that it copies is off the screen. -/
theorem add (refines : Refines ⟨driver, results⟩ board) (helpers : Helpers)
    (fresh : ∀ address, helpers.allocated = some address → address ≠ 0 ∧ address ∉ driver.live)
    (within : helpers.allocated ≠ none → helpers.uncopied = 0 →
      helpers.copied.location.toNat ≤ 1999) :
    ∃ result after, mp1IoctlAdd helpers driver = .ok (result, after) ∧
      Refines ⟨after, result :: results⟩ (board.add helpers) := by
  cases allocated : helpers.allocated with
  | none =>
      rw [mp1IoctlAdd, allocated, Board.add, allocated]
      exact ⟨-1, driver, rfl, refines.answer (-1)⟩
  | some address =>
      obtain ⟨real, unused⟩ := fresh address allocated
      have unlisted : address ∉ addresses board.items := fun member =>
        unused (refines.spells.live.mem_iff.2 member)
      obtain ⟨previous, rfl⟩ := Nat.exists_eq_succ_of_ne_zero real
      rw [mp1IoctlAdd, allocated, Driver.mp1Malloc, if_neg (not_or.2 ⟨real, unused⟩), Board.add,
        allocated]
      simp only
      rw [Driver.write_live List.mem_cons_self]
      simp only
      by_cases failed : helpers.uncopied ≠ 0
      · rw [if_pos failed, if_pos (.inl failed), Driver.mp1Free_live List.mem_cons_self]
        refine ⟨-1, _, rfl, refines.spells.frame unlisted rfl ?_ ?_ ?_, refines.screen,
          congrArg (-1 :: ·) refines.results⟩
        · exact List.erase_cons_head ..
        · intro event
          simp only [List.count_cons, reduceCtorEq, beq_iff_eq, HeapEvent.malloc.injEq,
            HeapEvent.free.injEq, if_false]
          omega
        · intro other different
          exact Function.update_of_ne different ..
      · have complete : helpers.uncopied = 0 := not_not.1 failed
        have visible : ¬ 1999 < helpers.copied.location.toNat :=
          not_lt.2 (within (by rw [allocated]; exact Option.some_ne_none _) complete)
        have accepted : ¬ (helpers.uncopied ≠ 0 ∨ 1999 < helpers.copied.location.toNat) :=
          fun bad => bad.elim failed visible
        rw [if_neg failed, Driver.write_live List.mem_cons_self]
        simp only
        rw [if_neg visible, if_neg accepted]
        refine ⟨0, _, rfl, refines.spells.push unlisted real rfl rfl rfl ?_ ?_ ?_, ?_,
          congrArg (0 :: ·) refines.results⟩
        · funext other
          by_cases same : other = previous.succ
          · subst same
            simp [Driver.link]
          · simp [Driver.link, same]
        · simp [Blink.lit]
        · intro other different
          simp [different]
        · have drawn := congrArg (Screen.draw · helpers.copied.toBlink.lit) refines.screen
          rw [Screen.draw, Blink.lit_shown] at drawn
          exact drawn

/-- The remove refines the deletion of the first structure with the location. -/
theorem remove (refines : Refines ⟨driver, results⟩ board) (arg : BitVec 32) :
    ∃ result after, mp1IoctlRemove arg driver = .ok (result, after) ∧
      Refines ⟨after, result :: results⟩ (board.remove ⟨arg.setWidth 16⟩) := by
  have searched : mp1Search driver ⟨arg.setWidth 16⟩ = .ok _ :=
    refines.spells.mp1Search_eq ⟨arg.setWidth 16⟩
  cases hit : Board.first board.items ⟨arg.setWidth 16⟩ with
  | none =>
      rw [hit] at searched
      rw [mp1IoctlRemove, searched, Board.remove, hit]
      exact ⟨-1, driver, rfl, refines.answer (-1)⟩
  | some item =>
      obtain ⟨front, rest, split, erased⟩ := Board.first_split hit
      have spells : Spells driver (front ++ item :: rest) := split ▸ refines.spells
      have member : item ∈ front ++ item :: rest := List.mem_append_right _ List.mem_cons_self
      have live : item.address ∈ driver.live := spells.mem_live member
      obtain ⟨previous, shape⟩ := Nat.exists_eq_succ_of_ne_zero (spells.real member)
      rw [hit, pointer, Option.elim_some, shape] at searched
      rw [mp1IoctlRemove, searched, Board.remove, hit]
      simp only
      rw [← shape, Driver.read_live live, erased]
      simp only
      rcases List.eq_nil_or_concat front with first | ⟨earlier, before, last⟩
      · subst first
        have head : driver.listHead = item.address := spells.linked.1
        rw [if_pos head, Driver.mp1Free, if_pos live]
        exact ⟨0, _, rfl, spells.drop spells.linked.2.2 (fun _ => rfl) rfl rfl, refines.screen,
          congrArg (0 :: ·) refines.results⟩
      · subst last
        have linked : Links driver.link 0 driver.listHead
            (addresses earlier ++ before.address :: item.address :: addresses rest) := by
          simpa [addresses] using spells.linked
        have inner : before.address ∈ driver.live := spells.mem_live (by simp)
        have travelled : remTrav driver item.address driver.fuel driver.listHead =
            .ok before.address := by
          refine remTrav_eq linked (fun node listed => ?_) ?_
          · exact spells.live.mem_iff.2 (by simpa [addresses] using listed)
          · have bound := spells.length_lt_fuel
            simp only [addresses, List.concat_eq_append, List.length_append, List.length_cons,
              List.length_map] at bound ⊢
            omega
        rw [if_neg linked.first_ne, travelled]
        simp only
        rw [Driver.write_live inner]
        simp only
        rw [Driver.mp1Free, if_pos live]
        refine ⟨0, _, rfl, spells.drop ?_ ?_ rfl rfl, refines.screen,
          congrArg (0 :: ·) refines.results⟩
        · change Links (BlinkStruct.next ∘ Function.update driver.node _ _) 0 driver.listHead _
          rw [Function.comp_update, addresses, List.concat_eq_append, List.append_assoc,
            List.map_append]
          exact linked.skip
        · intro address
          have fields := Function.comp_update BlinkStruct.toBlink driver.node before.address
            { driver.node before.address with next := driver.link item.address }
          exact congrFun (fields.trans (Function.update_eq_self ..)) address

/-- The find refines a look at the list. -/
theorem find (refines : Refines ⟨driver, results⟩ board) (helpers : Helpers) (arg : BitVec 32) :
    ∃ result, mp1IoctlFind helpers arg driver = .ok (result, driver) ∧
      Refines ⟨driver, result :: results⟩ (board.find helpers arg) := by
  have searched : mp1Search driver helpers.userLocation = .ok _ :=
    refines.spells.mp1Search_eq helpers.userLocation
  rw [mp1IoctlFind, Board.find]
  by_cases null : arg = 0
  · rw [if_pos null, if_pos null]
    exact ⟨-1, rfl, refines.answer (-1)⟩
  · rw [if_neg null, if_neg null, searched]
    cases hit : Board.first board.items helpers.userLocation with
    | none => exact ⟨-1, rfl, refines.answer (-1)⟩
    | some item =>
        have member : item ∈ board.items := (Board.first_some hit).1
        obtain ⟨previous, shape⟩ := Nat.exists_eq_succ_of_ne_zero (refines.spells.real member)
        have live : item.address ∈ driver.live := refines.spells.mem_live member
        rw [pointer, Option.elim_some, shape]
        simp only
        rw [← shape, Driver.read_live live]
        exact ⟨_, rfl, refines.answer _⟩

/-- The sync refines the copy of the timing to the second location. -/
theorem sync (refines : Refines ⟨driver, results⟩ board) (arg : BitVec 32) :
    ∃ result after, mp1IoctlSync arg driver = .ok (result, after) ∧
      Refines ⟨after, result :: results⟩
        (board.sync ⟨(arg >>> 16).setWidth 16⟩ ⟨arg.setWidth 16⟩) := by
  have searched (location : UInt16) : mp1Search driver location = .ok _ :=
    refines.spells.mp1Search_eq location
  rw [mp1IoctlSync, Board.sync, searched, searched]
  simp only
  cases hit : Board.first board.items ⟨(arg >>> 16).setWidth 16⟩ with
  | none => exact ⟨-1, driver, rfl, refines.answer (-1)⟩
  | some leader =>
      have leads : leader ∈ board.items := (Board.first_some hit).1
      have source : driver.read leader.address = .ok (driver.node leader.address) :=
        Driver.read_live (refines.spells.mem_live leads)
      rw [pointer, Option.elim_some, if_neg (refines.spells.real leads)]
      cases second : Board.first board.items ⟨arg.setWidth 16⟩ with
      | none => exact ⟨-1, driver, rfl, refines.answer (-1)⟩
      | some follower =>
          have follows : follower ∈ board.items := (Board.first_some second).1
          have target : follower.address ∈ driver.live := refines.spells.mem_live follows
          rw [pointer, Option.elim_some, if_neg (refines.spells.real follows), source]
          simp only
          rw [Driver.write_live target]
          simp only
          rw [Driver.read, if_pos target]
          simp only [Function.update_self]
          have source_eq := refines.spells.held leader leads
          have target_eq := refines.spells.held follower follows
          refine ⟨0, _, rfl, refines.spells.retime rfl rfl rfl ?_, ?_,
            congrArg (0 :: ·) refines.results⟩
          · rw [← source_eq]
            rfl
          · have drawn := congrArg (Screen.draw · (leader.blink.follow follower.blink))
              refines.screen
            rw [← source_eq, ← target_eq] at drawn ⊢
            exact drawn

/-- The step refines the abstract step when the memory that an add gets is not in use. -/
theorem step_of_fresh {system : System} (refines : Refines system board) (event : Event)
    (fresh : event.Fresh system.driver) (within : event.Within) :
    ∃ next, Mp1.step system event = .ok next ∧ Refines next (board.advance event) := by
  cases event with
  | ioctl helpers arg cmd =>
      have called {result : Int} {after : Driver} {board : Board}
          (called : mp1Ioctl helpers arg cmd system.driver = .ok (result, after))
          (refines : Refines ⟨after, result :: system.results⟩ board) :
          ∃ next, Mp1.step system (.ioctl helpers arg cmd) = .ok next ∧ Refines next board := by
        refine ⟨_, ?_, refines⟩
        change answered system.results (mp1Ioctl helpers arg cmd system.driver) = _
        rw [called]
        rfl
      rw [Board.advance]
      rw [mp1Ioctl] at called
      by_cases invalid : 3 < cmd.toNat
      · rw [if_pos invalid] at called ⊢
        exact called rfl (refines.answer (-1))
      · rw [if_neg invalid] at called ⊢
        by_cases adds : cmd = 0
        · rw [if_pos adds] at called ⊢
          obtain ⟨result, after, added, refines⟩ :=
            refines.add helpers (fresh adds) (within adds)
          exact called added refines
        · rw [if_neg adds] at called ⊢
          by_cases removes : cmd = 1
          · rw [if_pos removes] at called ⊢
            obtain ⟨result, after, removed, refines⟩ := refines.remove arg
            exact called removed refines
          · rw [if_neg removes] at called ⊢
            by_cases finds : cmd = 2
            · rw [if_pos finds] at called ⊢
              obtain ⟨result, found, refines⟩ := refines.find helpers arg
              exact called found refines
            · rw [if_neg finds] at called ⊢
              obtain ⟨result, after, synced, refines⟩ := refines.sync arg
              exact called synced refines
  | rtcTasklet =>
      obtain ⟨after, ticked, spells, screen⟩ := refines.spells.tick
      refine ⟨⟨after, system.results⟩, ?_, spells, ?_, refines.results⟩
      · rw [Mp1.step, ticked]
        rfl
      · exact screen.trans (congrArg (Screen.tick · board.items) refines.screen)

/-- The step refines the abstract step unless it adds a structure that is off the screen. -/
theorem step {system : System} (refines : Refines system board) (event : Event)
    (within : event.Within) : Outcome (board.advance event) (step system event) := by
  by_cases fresh : event.Fresh system.driver
  · obtain ⟨next, stepped, after⟩ := refines.step_of_fresh event fresh within
    rw [stepped]
    exact after
  · cases event with
    | ioctl helpers arg cmd =>
        simp only [Event.Fresh, not_forall] at fresh
        obtain ⟨rfl, address, allocated, broken⟩ := fresh
        have stopped : mp1Ioctl helpers arg 0 system.driver = .error .badAllocator := by
          rw [mp1Ioctl, if_neg (by decide), if_pos rfl, mp1IoctlAdd, allocated, Driver.mp1Malloc,
            if_pos (or_iff_not_imp_left.2 fun real => not_not.1 fun unused =>
              broken ⟨real, unused⟩)]
        rw [Mp1.step, stopped]
        rfl
    | rtcTasklet => exact absurd trivial fresh

theorem preserved (system : System) (event : Event) (next : System) (board : Board)
    (refines : Refines system board) (within : event.Within)
    (stepped : Mp1.step system event = .ok next) : Refines next (board.advance event) := by
  have outcome := refines.step event within
  rwa [stepped] at outcome

theorem start (node : Nat → BlinkStruct) (video : Nat → UInt8) :
    Refines (Mp1.start node video) (Board.start video) where
  spells := ⟨rfl, fun _ member => absurd member List.not_mem_nil, List.Perm.refl _, fun _ => rfl⟩
  screen := rfl
  results := rfl

end Refines

/-- Nothing but an allocator that breaks its promise stops a run from a sound list. -/
theorem Spells.run_stops {driver : Driver} {items : List Listed} (spells : Spells driver items)
    {results : List Int} {events : List Event} {fault : Fault}
    (within : Along (fun _ event => event.Within) step ⟨driver, results⟩ events)
    (stopped : run step ⟨driver, results⟩ events = .error fault) : fault = .badAllocator := by
  have initial : Refines ⟨driver, results⟩ ⟨items, driver.screen, results⟩ := ⟨spells, rfl, rfl⟩
  refine Library.run_stops (fun system => ∃ board, Refines system board) (· = Fault.badAllocator)
    (fun system event next => ?_) (fun system event fault => ?_) ⟨_, initial⟩ within stopped
  · rintro ⟨board, refines⟩ within stepped
    exact ⟨_, Refines.preserved system event next board refines within stepped⟩
  · rintro ⟨board, refines⟩ within stopped
    have outcome := refines.step event within
    rwa [stopped] at outcome

/-- Every run of the driver spells the abstract list after the same events, with the same results,
and nothing but an allocator that breaks its promise stops it. -/
def RefinesList (node : Nat → BlinkStruct) (video : Nat → UInt8) (events : List Event) : Prop :=
  match run step (start node video) events with
  | .ok system =>
      Spells system.driver (events.foldl Board.advance (Board.start video)).items ∧
        (addresses (events.foldl Board.advance (Board.start video)).items).Nodup ∧
        system.results = (events.foldl Board.advance (Board.start video)).results
  | .error fault => fault = .badAllocator

/-- Memory stays sound in every run that adds no structure which is off the screen. -/
theorem mp1_refinesList (node : Nat → BlinkStruct) (video : Nat → UInt8) (events : List Event)
    (within : ∀ event ∈ events, event.Within) : RefinesList node video events := by
  have allowed := along_of_forall step (start node video) events within
  have initial := Refines.start node video
  rw [RefinesList]
  cases reached : run step (start node video) events with
  | ok system =>
      have refines := run_simulates_along Refines Board.advance Refines.preserved initial allowed
        reached
      exact ⟨refines.spells, refines.spells.nodup, refines.results⟩
  | error fault => exact initial.spells.run_stops allowed reached

def unsetNode : BlinkStruct := ⟨⟨0, 0, 0, 0, 0, 0, 0⟩, 0⟩

/-- The add of a structure with one period for both states. -/
def sampleAdd (address : Nat) (location : UInt16) : Event :=
  .ioctl ⟨some address, ⟨⟨location, 65, 66, 2, 1, 0, 0⟩, 0⟩, 0, 0, 0⟩ 0 0

def sampleEvents : List Event :=
  [sampleAdd 16 5, sampleAdd 32 7, .rtcTasklet, .ioctl ⟨none, unsetNode, 0, 7, 0⟩ 1 2,
    .ioctl ⟨none, unsetNode, 0, 0, 0⟩ 0x50007 3, .ioctl ⟨none, unsetNode, 0, 0, 0⟩ 5 1, .rtcTasklet]

theorem mp1_refinesList_sample :
    RefinesList (fun _ => unsetNode) (fun _ => 0) sampleEvents := by
  refine mp1_refinesList _ _ sampleEvents fun event member => ?_
  simp only [sampleEvents, List.mem_cons, List.not_mem_nil, or_false] at member
  rcases member with rfl | rfl | rfl | rfl | rfl | rfl | rfl <;>
    simp [Event.Within, sampleAdd]

/-- An add that is off the screen fails but leaves the list head at freed memory, which the next
tick touches. -/
theorem mp1IoctlAdd_dangles :
    (∃ system, run step (start (fun _ => unsetNode) fun _ => 0) [sampleAdd 16 2000] = .ok system ∧
      system.results = [-1] ∧ system.driver.listHead = 16 ∧ 16 ∉ system.driver.live) ∧
    ¬ RefinesList (fun _ => unsetNode) (fun _ => 0) [sampleAdd 16 2000, .rtcTasklet] := by
  refine ⟨⟨_, rfl, rfl, rfl, by decide⟩, fun refines => ?_⟩
  have stopped : run step (start (fun _ => unsetNode) fun _ => 0)
      [sampleAdd 16 2000, .rtcTasklet] = .error .deadAccess := rfl
  rw [RefinesList, stopped] at refines
  cases refines

end ComputerSystems.Mp1
