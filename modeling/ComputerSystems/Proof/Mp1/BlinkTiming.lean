import Mathlib.Dynamics.PeriodicPts.Defs
import ComputerSystems.Proof.Mp1.Calls
import ComputerSystems.Proof.Mp1.ScreenConsistency

namespace ComputerSystems.Mp1

open Library

namespace Blink

variable {blink : Blink} {count : Nat}

theorem expires_iff : blink.expires = true ↔ blink.countdown.toNat = 1 := by
  rw [expires, decide_eq_true_iff, UInt16.sub_eq_iff_eq_add, UInt16.zero_add]
  exact UInt16.toNat_inj.symm

/-- What is left of a period of the structure. -/
def after (blink : Blink) (count : Nat) : Blink :=
  { blink with countdown := .ofNat (blink.countdown.toNat - count) }

@[simp] theorem after_countdown (blink : Blink) (count : Nat) :
    (blink.after count).countdown.toNat = blink.countdown.toNat - count :=
  UInt16.toNat_ofNat_of_lt' (lt_of_le_of_lt (Nat.sub_le ..) blink.countdown.toNat_lt)

/-- A period runs down by one at each tick. -/
theorem ticked_iterate (blink : Blink) (runs : count < blink.countdown.toNat) :
    ticked^[count] blink = blink.after count := by
  induction count with
  | zero => rw [Function.iterate_zero, id, after, Nat.sub_zero, UInt16.ofNat_toNat]
  | succ count ih =>
      rw [Function.iterate_succ_apply', ih (Nat.lt_of_succ_lt runs), ticked, if_neg]
      · rw [counted, after, after, ← Nat.sub_sub, UInt16.ofNat_sub (Nat.le_sub_of_add_le' runs.le)]
        rfl
      · rw [expires_iff, after_countdown]
        omega

/-- The status toggles when the period is over. -/
theorem ticked_iterate_countdown (blink : Blink) (runs : blink.countdown ≠ 0) :
    ticked^[blink.countdown.toNat] blink = if blink.status = 0 then blink.lit else blink.dark := by
  obtain ⟨count, last⟩ :=
    Nat.exists_eq_succ_of_ne_zero fun null => runs (UInt16.toNat.inj null)
  have before : ticked^[count] blink = blink.after count := ticked_iterate blink (by omega)
  have ends : (blink.after count).expires = true := by
    rw [expires_iff, after_countdown]
    omega
  rw [last, Function.iterate_succ_apply', before, ticked, if_pos ends]
  rfl

/-- An on period and an off period bring a lit structure back. -/
theorem lit_isPeriodicPt (on : blink.onLength ≠ 0) (off : blink.offLength ≠ 0) :
    Function.IsPeriodicPt ticked (blink.onLength.toNat + blink.offLength.toNat) blink.lit := by
  have darkens : ticked^[blink.onLength.toNat] blink.lit = blink.dark :=
    ticked_iterate_countdown blink.lit on
  have lights : ticked^[blink.offLength.toNat] blink.dark = blink.lit :=
    ticked_iterate_countdown blink.dark off
  rw [Function.IsPeriodicPt, Function.IsFixedPt, Nat.add_comm, Function.iterate_add_apply, darkens,
    lights]

theorem lit_iterate_status (on : blink.onLength ≠ 0) (off : blink.offLength ≠ 0) :
    (ticked^[count] blink.lit).status = 1 ↔
      count % (blink.onLength.toNat + blink.offLength.toNat) < blink.onLength.toNat := by
  rw [← (lit_isPeriodicPt on off).iterate_mod_apply count]
  have positive : 0 < blink.offLength.toNat := Nat.pos_of_ne_zero fun null =>
    off (UInt16.toNat.inj null)
  have bound : count % (blink.onLength.toNat + blink.offLength.toNat) < _ :=
    Nat.mod_lt count (Nat.add_pos_right _ positive)
  generalize count % (blink.onLength.toNat + blink.offLength.toNat) = phase at bound
  by_cases early : phase < blink.onLength.toNat
  · rw [ticked_iterate blink.lit early]
    exact iff_of_true rfl early
  · obtain ⟨rest, rfl⟩ := Nat.exists_eq_add_of_le' (not_lt.1 early)
    have darkens : ticked^[blink.onLength.toNat] blink.lit = blink.dark :=
      ticked_iterate_countdown blink.lit on
    rw [Function.iterate_add_apply, darkens, ticked_iterate blink.dark]
    · exact iff_of_false (show (0 : UInt16) ≠ 1 by decide) early
    · show rest < blink.offLength.toNat
      omega

/-- The status follows the lengths from the start exactly when no period is empty. -/
theorem lit_follows_iff :
    (∀ count, (ticked^[count] blink.lit).status = 1 ↔
      count % (blink.onLength.toNat + blink.offLength.toNat) < blink.onLength.toNat) ↔
      blink.onLength ≠ 0 ∧ blink.offLength ≠ 0 := by
  constructor
  · intro follows
    have on : blink.onLength ≠ 0 := by
      intro empty
      have early := (follows 0).1 rfl
      rw [empty] at early
      exact Nat.not_lt_zero _ early
    refine ⟨on, fun empty => ?_⟩
    have darkens : ticked^[blink.onLength.toNat] blink.lit = blink.dark :=
      ticked_iterate_countdown blink.lit on
    have late := (follows blink.onLength.toNat).2
    rw [darkens, empty, UInt16.toNat_zero, Nat.add_zero, Nat.mod_self] at late
    have positive : 0 < blink.onLength.toNat := Nat.pos_of_ne_zero fun null =>
      on (UInt16.toNat.inj null)
    exact absurd (late positive) (show (0 : UInt16) ≠ 1 by decide)
  · rintro ⟨on, off⟩ count
    exact lit_iterate_status on off

end Blink

/-- Every walk over memory in use from the list head to the end passes the node. -/
def Driver.Passes (driver : Driver) (address : Nat) : Prop :=
  ∀ nodes, Links driver.link 0 driver.listHead nodes → (∀ node ∈ nodes, node ∈ driver.live) →
    address ∈ nodes

/-- The node is in use, on the list, and holds the structure. -/
structure Driver.Keeps (driver : Driver) (address : Nat) (blink : Blink) : Prop where
  live : address ∈ driver.live
  passes : driver.Passes address
  blink : (driver.node address).toBlink = blink

/-- A remove or a sync changes the node that it finds at its location. -/
def Event.Touches (event : Event) (driver : Driver) (address : Nat) : Prop :=
  match event with
  | .ioctl _ arg cmd =>
      (cmd = 1 ∨ cmd = 3) ∧ mp1Search driver ⟨arg.setWidth 16⟩ = .ok address
  | .rtcTasklet => False

namespace Driver.Keeps

variable {driver after : Driver} {address : Nat} {blink : Blink} {helpers : Helpers}
  {arg : BitVec 32} {result : Int}

/-- A change of memory that is not in use does not matter. -/
theorem frame (keeps : driver.Keeps address blink) {fresh : Nat} (unused : fresh ∉ driver.live)
    (node : ∀ other ≠ fresh, after.node other = driver.node other)
    (live : after.live = driver.live)
    (head : after.listHead = driver.listHead ∨ after.listHead = fresh) (real : fresh ≠ 0) :
    after.Keeps address blink where
  live := live ▸ keeps.live
  passes nodes linked inner := by
    rw [live] at inner
    rcases head with same | stranded
    · refine keeps.passes nodes ?_ inner
      rw [← same]
      refine linked.congr fun other member => congrArg BlinkStruct.next (node other ?_).symm
      exact fun equal => unused (equal ▸ inner other member)
    · cases nodes with
      | nil => exact absurd (stranded.symm.trans linked) real
      | cons first rest =>
          have same : fresh = first := stranded.symm.trans linked.1
          exact absurd (inner first List.mem_cons_self) (same ▸ unused)
  blink := by
    rw [node address fun same => unused (same ▸ keeps.live)]
    exact keeps.blink

theorem push (keeps : driver.Keeps address blink) {fresh : Nat} (unused : fresh ∉ driver.live)
    (node : ∀ other ≠ fresh, after.node other = driver.node other)
    (live : after.live = fresh :: driver.live) (head : after.listHead = fresh)
    (own : (after.node fresh).next = driver.listHead) (real : fresh ≠ 0) :
    after.Keeps address blink where
  live := live ▸ List.mem_cons_of_mem fresh keeps.live
  passes nodes linked inner := by
    cases nodes with
    | nil => exact absurd (head.symm.trans linked) real
    | cons first rest =>
        have unique := linked.nodup
        obtain ⟨here, -, later⟩ := linked
        have same : fresh = first := head.symm.trans here
        subst same
        have old : ∀ other ∈ rest, other ≠ fresh := fun other member equal =>
          (List.nodup_cons.1 unique).1 (equal ▸ member)
        have start : after.link fresh = driver.listHead := own
        rw [start] at later
        refine List.mem_cons_of_mem fresh (keeps.passes rest ?_ fun other member => ?_)
        · exact later.congr fun other member =>
            congrArg BlinkStruct.next (node other (old other member)).symm
        · have used := inner other (List.mem_cons_of_mem fresh member)
          rw [live] at used
          exact (List.mem_cons.1 used).resolve_left (old other member)
  blink := by
    rw [node address fun same => unused (same ▸ keeps.live)]
    exact keeps.blink

theorem add (keeps : driver.Keeps address blink)
    (added : mp1IoctlAdd helpers driver = .ok (result, after)) : after.Keeps address blink := by
  rcases mp1IoctlAdd_cases added with ⟨-, -, same⟩ | ⟨fresh, -, real, unused, node, rest⟩
  · exact same ▸ keeps
  · rcases rest with ⟨-, live, head⟩ | ⟨-, -, live, head, own⟩
    · exact keeps.frame unused node live head real
    · exact keeps.push unused node live head (congrArg BlinkStruct.next own) real

theorem remove (keeps : driver.Keeps address blink)
    (other : mp1Search driver ⟨arg.setWidth 16⟩ ≠ .ok address)
    (removed : mp1IoctlRemove arg driver = .ok (result, after)) : after.Keeps address blink := by
  rcases mp1IoctlRemove_cases removed with ⟨-, -, same⟩ |
    ⟨target, searched, real, used, -, live, fields, shape⟩
  · exact same ▸ keeps
  · have apart : address ≠ target := fun same => other (same ▸ searched)
    refine ⟨?_, fun nodes linked inner => ?_, (fields address).trans keeps.blink⟩
    · rw [live]
      exact (List.mem_erase_of_ne apart).2 keeps.live
    · have old : ∀ node ∈ nodes, node ∈ driver.live := fun node member =>
        List.mem_of_mem_erase (live ▸ inner node member)
      rcases shape with ⟨first, head, link⟩ | ⟨previous, before, head, link⟩
      · rw [head, link] at linked
        have whole : Links driver.link 0 driver.listHead (target :: nodes) := ⟨first, real, linked⟩
        refine (List.mem_cons.1 (keeps.passes _ whole fun node member => ?_)).resolve_left apart
        rcases List.mem_cons.1 member with same | later
        · exact same ▸ used
        · exact old node later
      · rw [head, link] at linked
        obtain ⟨whole, linked, members⟩ := Links.restore real before linked
        have inside : ∀ node ∈ whole, node ∈ driver.live := by
          intro node member
          rcases members node member with later | same
          · exact old node later
          · exact same ▸ used
        exact (members address (keeps.passes whole linked inside)).resolve_right apart

theorem sync (keeps : driver.Keeps address blink)
    (other : mp1Search driver ⟨arg.setWidth 16⟩ ≠ .ok address)
    (synced : mp1IoctlSync arg driver = .ok (result, after)) : after.Keeps address blink := by
  rcases mp1IoctlSync_cases synced with ⟨-, same, -⟩ |
    ⟨first, second, -, searched, -, -, -, head, live, node⟩
  · exact same ▸ keeps
  · refine ⟨live ▸ keeps.live, fun nodes linked inner => ?_, ?_⟩
    · rw [head, Driver.link_follow node] at linked
      rw [live] at inner
      exact keeps.passes nodes linked inner
    · have apart : address ≠ second := fun same => other (searched.trans (congrArg _ same.symm))
      rw [node, Function.update_of_ne apart]
      exact keeps.blink

/-- A call that does not touch the node keeps it. -/
theorem ioctl (keeps : driver.Keeps address blink) {cmd : BitVec 32}
    (apart : ¬ (Event.ioctl helpers arg cmd).Touches driver address)
    (called : mp1Ioctl helpers arg cmd driver = .ok (result, after)) :
    after.Keeps address blink := by
  rw [Event.Touches, not_and] at apart
  rw [mp1Ioctl] at called
  split_ifs at called with invalid adds removes finds
  · cases called
    exact keeps
  · exact keeps.add called
  · exact keeps.remove (apart (.inl removes)) called
  · rw [mp1IoctlFind_cases called]
    exact keeps
  · exact keeps.sync (apart (.inr (syncs_of_rest invalid adds removes finds))) called

end Driver.Keeps

/-- A round of the loop of the tasklet, with the driver before and after it. -/
structure Round where
  address : Nat
  before : Driver
  after : Driver

/-- The rounds of `traverse`. -/
def rounds : Nat → Nat → Driver → List Round
  | 0, _, _ => []
  | fuel + 1, address, driver =>
      if address = 0 then []
      else
        match driver.read address with
        | .error _ => []
        | .ok node =>
            match tickNode address node driver with
            | .error _ => []
            | .ok ticked => ⟨address, driver, ticked⟩ :: rounds fuel node.next ticked

/-- A completed tasklet has walked over memory in use to the end of the list, with one round for
each node on its way. -/
theorem traverse_cases {fuel start : Nat} {driver after : Driver}
    (walked : traverse fuel start driver = .ok after) :
    Links driver.link 0 start ((rounds fuel start driver).map Round.address) ∧
      (∀ round ∈ rounds fuel start driver, round.address ∈ driver.live ∧
        after.node round.address = (driver.node round.address).ticked ∧
        round.after.screen = round.before.screen.tickOne (driver.node round.address).toBlink) ∧
      (∀ other, other ∉ (rounds fuel start driver).map Round.address →
        after.node other = driver.node other) ∧
      after.listHead = driver.listHead ∧ after.live = driver.live ∧ after.link = driver.link := by
  induction fuel generalizing start driver with
  | zero => cases walked
  | succ fuel ih =>
      rw [traverse] at walked
      rw [rounds]
      by_cases done : start = 0
      · rw [if_pos done] at walked ⊢
        cases walked
        exact ⟨done, fun _ member => absurd member List.not_mem_nil, fun _ _ => rfl, rfl, rfl, rfl⟩
      · by_cases used : start ∈ driver.live
        · obtain ⟨middle, ticked, head, live, -, node, screen⟩ := tickNode_eq used
          rw [if_neg done, Driver.read_live used] at walked ⊢
          simp only [ticked] at walked ⊢
          have link : middle.link = driver.link := by
            have links := Function.comp_update BlinkStruct.next driver.node start
              (driver.node start).ticked
            rw [← node] at links
            exact links.trans (Function.update_eq_self ..)
          obtain ⟨linked, passed, frame, heads, alive, links⟩ := ih walked
          rw [link] at linked
          have whole : Links driver.link 0 start
              (start :: (rounds fuel (driver.node start).next middle).map Round.address) :=
            ⟨rfl, done, linked⟩
          have unique := (List.nodup_cons.1 whole.nodup).1
          have apart : ∀ other ≠ start, middle.node other = driver.node other := by
            intro other different
            rw [node, Function.update_of_ne different]
          refine ⟨whole, fun round member => ?_, fun other absent => ?_, heads.trans head,
            alive.trans live, links.trans link⟩
          · rcases List.mem_cons.1 member with same | later
            · subst same
              refine ⟨used, ?_, screen⟩
              rw [frame start unique, node, Function.update_self]
            · have different : round.address ≠ start := fun same =>
                unique (List.mem_map.2 ⟨round, later, same⟩)
              obtain ⟨inner, after, drawn⟩ := passed round later
              rw [apart round.address different] at after drawn
              exact ⟨live ▸ inner, after, drawn⟩
          · rw [List.map_cons, List.mem_cons, not_or] at absent
            rw [frame other absent.2, apart other absent.1]
        · rw [if_neg done, Driver.read, if_neg used] at walked
          cases walked

/-- A tick has one round for the node, and draws there exactly when the status changes. -/
def DrawsChange (address : Nat) (now next : Driver) : Prop :=
  ∃ before after, (rounds now.fuel now.listHead now).filter (fun round => round.address = address) =
      [⟨address, before, after⟩] ∧
    after.screen = if (next.node address).status = (now.node address).status then before.screen
      else before.screen.draw (next.node address).toBlink

namespace Driver.Keeps

variable {driver after : Driver} {address : Nat} {blink : Blink}

theorem tick (keeps : driver.Keeps address blink) (ticked : mp1RtcTasklet driver = .ok after) :
    after.Keeps address blink.ticked ∧ DrawsChange address driver after := by
  obtain ⟨linked, passed, -, head, live, link⟩ := traverse_cases ticked
  have walked : ∀ node ∈ (rounds driver.fuel driver.listHead driver).map Round.address,
      node ∈ driver.live := by
    intro node member
    obtain ⟨round, listed, rfl⟩ := List.mem_map.1 member
    exact (passed round listed).1
  obtain ⟨round, listed, here⟩ := List.mem_map.1 (keeps.passes _ linked walked)
  obtain ⟨-, node, drawn⟩ := passed round listed
  rw [here] at node drawn
  refine ⟨⟨live ▸ keeps.live, fun nodes path inner => ?_, ?_⟩, round.before, round.after, ?_, ?_⟩
  · rw [head, link] at path
    rw [live] at inner
    exact keeps.passes nodes path inner
  · rw [node, ← keeps.blink]
    rfl
  · obtain ⟨front, back, split⟩ := List.append_of_mem listed
    have unique := linked.nodup
    rw [split, List.map_append, List.map_cons, here] at unique
    have others := List.nodup_middle.1 unique
    rw [List.nodup_cons, List.mem_append, not_or] at others
    rw [split, List.filter_append, List.filter_cons_of_pos (by simpa using here),
      List.filter_eq_nil_iff.2, List.filter_eq_nil_iff.2]
    · rw [List.nil_append, ← here]
    · intro other member same
      exact others.1.2 (of_decide_eq_true same ▸ List.mem_map_of_mem member)
    · intro other member same
      exact others.1.1 (of_decide_eq_true same ▸ List.mem_map_of_mem member)
  · rw [drawn, node, Screen.tickOne, BlinkStruct.ticked]
    by_cases expires : (driver.node address).toBlink.expires = true
    · rw [if_pos expires, if_neg (Blink.ticked_status expires)]
    · rw [if_neg expires, if_pos]
      rw [Blink.ticked, if_neg expires]
      rfl

end Driver.Keeps

def Event.isTick : Event → Bool
  | .ioctl .. => false
  | .rtcTasklet => true

/-- While no call touches the node, its status follows its lengths from the add on, and each tick
draws it exactly when the status changes. Nothing stops such a run but an allocator that breaks its
promise, or a structure that is off the screen. -/
def BlinksOnTime (added : System) (address : Nat) : Prop :=
  ∀ events, Along (fun system event => ¬ event.Touches system.driver address) step added events →
    match run step added events with
    | .ok now =>
        ((now.driver.node address).status = 1 ↔
          events.countP Event.isTick % ((added.driver.node address).onLength.toNat +
            (added.driver.node address).offLength.toNat) <
              (added.driver.node address).onLength.toNat) ∧
          ∀ next, mp1RtcTasklet now.driver = .ok next → DrawsChange address now.driver next
    | .error fault => (∀ event ∈ events, event.Within) → fault = .badAllocator

/-- A structure changes only with the ticks. -/
def Blink.advance (blink : Blink) (event : Event) : Blink :=
  if event.isTick then blink.ticked else blink

theorem Blink.foldl_advance (blink : Blink) (events : List Event) :
    events.foldl Blink.advance blink = Blink.ticked^[events.countP Event.isTick] blink := by
  induction events generalizing blink with
  | nil => rfl
  | cons event rest ih =>
      rw [List.foldl_cons, ih, List.countP_cons, Blink.advance]
      split_ifs
      · rw [Function.iterate_succ_apply]
      · rfl

theorem Driver.Keeps.step {system next : System} {address : Nat} {blink : Blink} {event : Event}
    (keeps : system.driver.Keeps address blink) (apart : ¬ event.Touches system.driver address)
    (stepped : Mp1.step system event = .ok next) :
    next.driver.Keeps address (blink.advance event) := by
  cases event with
  | ioctl helpers arg cmd =>
      rw [Mp1.step] at stepped
      cases called : mp1Ioctl helpers arg cmd system.driver with
      | error fault =>
          rw [called] at stepped
          cases stepped
      | ok answer =>
          rw [called] at stepped
          cases stepped
          exact keeps.ioctl apart called
  | rtcTasklet =>
      rw [Mp1.step] at stepped
      cases ticked : mp1RtcTasklet system.driver with
      | error fault =>
          rw [ticked] at stepped
          cases stepped
      | ok after =>
          rw [ticked] at stepped
          cases stepped
          exact (keeps.tick ticked).1

theorem ticks_apart (system : System) (address count : Nat) :
    Along (fun system event => ¬ event.Touches system.driver address) step system
      (List.replicate count .rtcTasklet) := by
  induction count generalizing system with
  | zero => trivial
  | succ count ih => exact ⟨id, fun next _ => ih next⟩

section
variable {driver after : Driver} {items : List Listed} {helpers : Helpers} {results : List Int}
  {address : Nat}

/-- The added node is in use and on the list, in its first on period. -/
theorem Driver.Keeps.added (allocated : helpers.allocated = some address)
    (adds : mp1IoctlAdd helpers driver = .ok (0, after)) :
    after.Keeps address helpers.copied.toBlink.lit := by
  rcases mp1IoctlAdd_cases adds with ⟨-, wrong, -⟩ | ⟨fresh, same, real, -, -, rest⟩
  · cases wrong
  · rw [allocated, Option.some_inj] at same
    subst same
    rcases rest with ⟨wrong, -⟩ | ⟨-, -, live, head, own⟩
    · cases wrong
    · refine ⟨live ▸ List.mem_cons_self, fun nodes linked _ => ?_, congrArg BlinkStruct.toBlink own⟩
      cases nodes with
      | nil => exact absurd (head.symm.trans linked) real
      | cons first rest =>
          have here : address = first := head.symm.trans linked.1
          exact here ▸ List.mem_cons_self

/-- Ticks never stop. -/
theorem Spells.run_ticks (spells : Spells driver items) (count : Nat) :
    ∃ now, run step ⟨driver, results⟩ (List.replicate count .rtcTasklet) = .ok now := by
  induction count generalizing driver items with
  | zero => exact ⟨_, rfl⟩
  | succ count ih =>
      obtain ⟨after, ticked, spells, -⟩ := spells.tick
      obtain ⟨now, reached⟩ := ih spells
      refine ⟨now, ?_⟩
      rw [List.replicate_succ, run, step, ticked]
      exact reached

/-- An add keeps a sound list sound when it succeeds. -/
theorem Spells.added (spells : Spells driver items)
    (adds : mp1IoctlAdd helpers driver = .ok (0, after)) : ∃ others, Spells after others := by
  have before : Refines ⟨driver, []⟩ ⟨items, driver.screen, []⟩ := ⟨spells, rfl, rfl⟩
  rcases mp1IoctlAdd_cases adds with ⟨-, wrong, -⟩ | ⟨address, allocated, real, unused, -, rest⟩
  · cases wrong
  · rcases rest with ⟨wrong, -⟩ | ⟨-, within, -⟩
    · cases wrong
    · have fresh : ∀ other, helpers.allocated = some other → other ≠ 0 ∧ other ∉ driver.live := by
        intro other same
        rw [allocated, Option.some_inj] at same
        exact same ▸ ⟨real, unused⟩
      obtain ⟨result, other, added, refines⟩ := before.add helpers fresh fun _ _ => within
      rw [adds] at added
      cases added
      exact ⟨_, refines.spells⟩

/-- A node that an add has listed blinks on time exactly when no period of it is empty. An empty
period lasts 65536 ticks. -/
theorem blinkTiming_iff (spells : Spells driver items)
    (allocated : helpers.allocated = some address)
    (adds : mp1IoctlAdd helpers driver = .ok (0, after)) :
    BlinksOnTime ⟨after, results⟩ address ↔
      helpers.copied.onLength ≠ 0 ∧ helpers.copied.offLength ≠ 0 := by
  have keeps := Driver.Keeps.added allocated adds
  obtain ⟨others, sound⟩ := spells.added adds
  have blink : (after.node address).toBlink = helpers.copied.toBlink.lit := keeps.blink
  have on : (after.node address).onLength = helpers.copied.onLength := by
    rw [blink]
    rfl
  have off : (after.node address).offLength = helpers.copied.offLength := by
    rw [blink]
    rfl
  have later {events : List Event} {now : System} (apart : Along (fun system event =>
      ¬ event.Touches system.driver address) step ⟨after, results⟩ events)
      (reached : run step ⟨after, results⟩ events = .ok now) :
      now.driver.Keeps address
        (Blink.ticked^[events.countP Event.isTick] helpers.copied.toBlink.lit) := by
    rw [← Blink.foldl_advance]
    exact run_simulates_along (fun system blink => system.driver.Keeps address blink) Blink.advance
      (fun _ _ _ _ keeps apart stepped => keeps.step apart stepped) keeps apart reached
  rw [← Blink.lit_follows_iff]
  constructor
  · intro timed count
    obtain ⟨now, reached⟩ := sound.run_ticks count
    have apart := ticks_apart ⟨after, results⟩ address count
    have ticks : (List.replicate count Event.rtcTasklet).countP Event.isTick = count :=
      List.countP_replicate
    have status := timed _ apart
    have keeps := later apart reached
    rw [ticks] at keeps
    rw [reached] at status
    rw [← keeps.blink, status.1, ticks, on, off]
  · intro follows events apart
    cases reached : run step ⟨after, results⟩ events with
    | ok now =>
        have keeps := later apart reached
        refine ⟨?_, fun next ticked => (keeps.tick ticked).2⟩
        rw [on, off, ← follows]
        rw [← keeps.blink]
    | error fault =>
        exact fun within => sound.run_stops (along_of_forall step _ events within) reached

end

/-- What `mp1_malloc` and `mp1_copy_from_user` do for a structure with the lengths. -/
def sampleHelpers (onLength offLength : UInt16) : Helpers :=
  ⟨some 16, ⟨⟨5, 65, 66, onLength, offLength, 0, 0⟩, 0⟩, 0, 0, 0⟩

theorem blinkTiming_iff_sample :
    ∃ after, mp1IoctlAdd (sampleHelpers 2 1) (start (fun _ => unsetNode) fun _ => 0).driver =
      .ok (0, after) ∧ BlinksOnTime ⟨after, []⟩ 16 := by
  obtain ⟨after, adds⟩ : ∃ after, mp1IoctlAdd (sampleHelpers 2 1)
      (start (fun _ => unsetNode) fun _ => 0).driver = .ok (0, after) := ⟨_, rfl⟩
  have allocated : (sampleHelpers 2 1).allocated = some 16 := rfl
  have spells := (Refines.start (fun _ => unsetNode) fun _ => 0).spells
  exact ⟨after, adds, (blinkTiming_iff spells allocated adds).2 ⟨by decide, by decide⟩⟩

/-- A structure without an off period goes dark after its first on period. -/
theorem blinksOnTime_freezes :
    ∃ after, mp1IoctlAdd (sampleHelpers 1 0) (start (fun _ => unsetNode) fun _ => 0).driver =
      .ok (0, after) ∧ ¬ BlinksOnTime ⟨after, []⟩ 16 := by
  refine ⟨_, rfl, fun timed => ?_⟩
  have follows := (timed [.rtcTasklet] ⟨id, fun _ _ => trivial⟩).1
  exact absurd (follows.2 (by decide)) (by decide)

end ComputerSystems.Mp1
