import ComputerSystems.Proof.Fish.Refinement

namespace ComputerSystems.Fish

open Library Mp1

/-- The list ends, and so does the tasklet. No memory that `mp1_malloc` would return is listed, and
it fails only when all entries are listed. -/
def Sound (system : System) : Prop :=
  ∃ nodes, Links system.engine.link 0 system.engine.listHead nodes ∧ nodes.Nodup ∧
    mp1Malloc system.engine ∉ nodes ∧
    (mp1Malloc system.engine = 0 → ∀ index < 80 * 25, slot index ∈ nodes) ∧
    ∃ after, mp1RtcTasklet system.engine = .ok after

/-- An add gets no memory for a structure at location 0. -/
def Harmless (system : System) : Request → Prop
  | .add user => user.location = 0 → mp1Malloc system.engine = 0
  | _ => True

/-- Exactly the entries that are not listed have location 0. -/
structure Proper (engine : Engine) (items : List Listed) : Prop where
  holds : Holds engine items
  slots : ∀ item ∈ items, ∃ index < 80 * 25, item.address = slot index
  unused : ∀ index < 80 * 25,
    (engine.node (slot index)).location = 0 ↔ slot index ∉ addresses items

section
variable {engine other : Engine} {entries : Nat}

/-- The allocator looks at the locations only. -/
theorem mallocLoop_congr (same : ∀ index < entries,
    (engine.node (slot index)).location = (other.node (slot index)).location) :
    mallocLoop engine entries = mallocLoop other entries := by
  have found : ((List.range entries).find? fun index =>
      (engine.node (slot index)).location = 0) =
      (List.range entries).find? fun index => (other.node (slot index)).location = 0 := by
    refine List.find?_congr fun index inside => ?_
    rw [same index (List.mem_range.1 inside)]
  rw [mallocLoop, found, mallocLoop]

/-- The allocator returns an entry with location 0, or none has location 0. -/
theorem mallocLoop_cases (engine : Engine) (entries : Nat) :
    (mallocLoop engine entries = 0 ∧
      ∀ index < entries, (engine.node (slot index)).location ≠ 0) ∨
      ∃ index < entries, mallocLoop engine entries = slot index ∧
        (engine.node (slot index)).location = 0 := by
  rw [mallocLoop]
  cases found : (List.range entries).find? fun index =>
      (engine.node (slot index)).location = 0 with
  | none =>
      refine .inl ⟨rfl, fun index inside => ?_⟩
      simpa using List.find?_eq_none.1 found index (List.mem_range.2 inside)
  | some index =>
      refine .inr ⟨index, List.mem_range.1 (List.mem_of_find?_eq_some found), rfl, ?_⟩
      simpa using List.find?_some found

theorem mallocLoop_first (free : (engine.node (slot 0)).location = 0) :
    mallocLoop engine (entries + 1) = slot 0 := by
  rw [mallocLoop, List.range_succ_eq_map, List.find?_cons_of_pos (by simpa using free)]

end

namespace Proper

variable {engine : Engine} {items : List Listed}

theorem malloc_unlisted (proper : Proper engine items) : mp1Malloc engine ∉ addresses items := by
  rcases mallocLoop_cases engine (80 * 25) with ⟨full, -⟩ | ⟨index, inside, found, free⟩
  · rw [mp1Malloc, full]
    exact proper.holds.linked.nil_notMem
  · rw [mp1Malloc, found]
    exact (proper.unused index inside).1 free

theorem sound (proper : Proper engine items) (results : List Int) : Sound ⟨engine, results⟩ := by
  obtain ⟨after, ticked, -⟩ := proper.holds.tick
  refine ⟨addresses items, proper.holds.linked, proper.holds.nodup, proper.malloc_unlisted,
    fun full index inside => ?_, after, ticked⟩
  rcases mallocLoop_cases engine (80 * 25) with ⟨-, taken⟩ | ⟨other, -, found, -⟩
  · exact not_not.1 fun unlisted => taken index inside ((proper.unused index inside).2 unlisted)
  · rw [mp1Malloc, found] at full
    exact absurd full (Nat.succ_ne_zero other)

/-- A change that keeps the list and the locations keeps the entries proper. -/
theorem relocate (proper : Proper engine items) {after : Engine} {others : List Listed}
    (holds : Holds after others) (same : addresses others = addresses items)
    (locations : ∀ address, (after.node address).location = (engine.node address).location) :
    Proper after others where
  holds := holds
  slots item member := by
    have listed : item.address ∈ addresses items := same ▸ List.mem_map_of_mem member
    obtain ⟨old, before, address⟩ := List.mem_map.1 listed
    exact address ▸ proper.slots old before
  unused index inside := by
    rw [locations, same]
    exact proper.unused index inside

/-- An add takes an entry that is not listed and gives it a location that is not 0. -/
theorem added (proper : Proper engine items) {index : Nat} (inside : index < 80 * 25)
    (free : (engine.node (slot index)).location = 0) {blink : Blink} (used : blink.location ≠ 0) :
    Proper (Fish.added engine (slot index) blink) (⟨slot index, blink.lit⟩ :: items) where
  holds := proper.holds.added (Nat.succ_ne_zero index) ((proper.unused index inside).1 free) blink
  slots item member := by
    rcases List.mem_cons.1 member with rfl | old
    · exact ⟨index, inside, rfl⟩
    · exact proper.slots item old
  unused other within := by
    rw [addresses, List.map_cons, List.mem_cons, not_or]
    by_cases same : slot other = slot index
    · rw [same, added_node_self]
      exact iff_of_false used fun apart => apart.1 rfl
    · rw [added_node_of_ne engine same, proper.unused other within]
      exact (and_iff_right same).symm

/-- A remove clears the entry that it takes off the list. -/
theorem removed {item : Listed} {front rest : List Listed}
    (proper : Proper engine (front ++ item :: rest)) {after : Engine}
    (holds : Holds after (front ++ rest)) (cleared : after.node item.address = zeroed)
    (others : ∀ other ≠ item.address,
      (after.node other).toBlink = (engine.node other).toBlink) :
    Proper after (front ++ rest) where
  holds := holds
  slots other member := by
    refine proper.slots other (List.mem_append.2 ?_)
    exact (List.mem_append.1 member).imp_right (List.mem_cons_of_mem item)
  unused index inside := by
    have unique := proper.holds.nodup
    rw [addresses, List.map_append, List.map_cons] at unique
    have unlisted := (List.nodup_cons.1 (List.nodup_middle.1 unique)).1
    rw [addresses, List.map_append]
    by_cases same : slot index = item.address
    · rw [same, cleared]
      exact iff_of_true rfl unlisted
    · rw [others _ same, proper.unused index inside, addresses, List.map_append, List.map_cons]
      simp [same]

theorem serve (proper : Proper engine items) (results : List Int) (request : Request)
    (harmless : Harmless ⟨engine, results⟩ request) :
    ∃ next others, Fish.serve ⟨engine, results⟩ request = .ok next ∧ Proper next.engine others := by
  cases request with
  | add user =>
      by_cases fails : 2000 ≤ user.location.toNat ∨ mp1Malloc engine = 0
      · have called : mp1Ioctl engine (.add user (mp1Malloc engine)) = .ok (-1, engine) :=
          congrArg Except.ok (mp1IoctlAdd_fails engine fails)
        exact ⟨_, items, step_ioctl _ called results, proper⟩
      · rw [not_or, not_le] at fails
        have called : mp1Ioctl engine (.add user (mp1Malloc engine)) = _ :=
          congrArg Except.ok (mp1IoctlAdd_eq engine fails.1 fails.2)
        rcases mallocLoop_cases engine (80 * 25) with ⟨full, -⟩ | ⟨index, inside, found, free⟩
        · exact absurd full fails.2
        · have slotted : mp1Malloc engine = slot index := found
          rw [slotted] at called
          refine ⟨⟨Fish.added engine (slot index) user.toBlink, 0 :: results⟩, _, ?_,
            proper.added inside free fun null => fails.2 (harmless null)⟩
          rw [Fish.serve, Request.event, slotted]
          exact step_ioctl _ called results
  | remove arg =>
      cases hit : Board.first items ⟨arg.setWidth 16⟩ with
      | none =>
          have called := proper.holds.remove_absent hit
          exact ⟨_, items, step_ioctl (.remove arg) called results, proper⟩
      | some item =>
          obtain ⟨front, rest, split, -⟩ := Board.first_split hit
          subst split
          obtain ⟨after, removed, holds, cleared, others, -⟩ := proper.holds.remove hit
          exact ⟨_, front ++ rest, step_ioctl (.remove arg) removed results,
            proper.removed holds cleared others⟩
  | find location =>
      have called := proper.holds.find location
      exact ⟨_, items, step_ioctl (.find location) called results, proper⟩
  | sync arg =>
      cases hit : Board.first items ⟨(arg >>> 16).setWidth 16⟩ with
      | none =>
          have called := proper.holds.sync_absent (.inl hit)
          exact ⟨_, items, step_ioctl (.sync arg) called results, proper⟩
      | some leader =>
          cases second : Board.first items ⟨arg.setWidth 16⟩ with
          | none =>
              have called := proper.holds.sync_absent (.inr second)
              exact ⟨_, items, step_ioctl (.sync arg) called results, proper⟩
          | some follower =>
              obtain ⟨after, synced, holds, locations, -⟩ := proper.holds.sync hit second
              exact ⟨_, _, step_ioctl (.sync arg) synced results,
                proper.relocate holds (addresses_retime ..) locations⟩
  | tasklet =>
      obtain ⟨after, ticked, holds, locations, -⟩ := proper.holds.tick
      refine ⟨⟨after, results⟩, _, ?_, proper.relocate holds ?_ locations⟩
      · rw [Fish.serve, Request.event, step, ticked]
        rfl
      · rw [addresses, addresses, List.map_map]
        rfl

end Proper

/-- An add at location 0 leaves the entry that it takes to the next add. -/
theorem not_sound_of_harmful {engine : Engine} {items : List Listed} (proper : Proper engine items)
    {results : List Int} {request : Request} (harmful : ¬ Harmless ⟨engine, results⟩ request) :
    ∃ next, serve ⟨engine, results⟩ request = .ok next ∧ ¬ Sound next := by
  cases request with
  | add user =>
      rw [Harmless, Classical.not_imp] at harmful
      obtain ⟨origin, given⟩ := harmful
      rcases mallocLoop_cases engine (80 * 25) with ⟨full, -⟩ | ⟨index, inside, found, free⟩
      · exact absurd full given
      · have slotted : mp1Malloc engine = slot index := found
        have within : user.location.toNat < 2000 := by
          rw [origin]
          decide
        have called : mp1Ioctl engine (.add user (slot index)) = _ :=
          congrArg Except.ok (mp1IoctlAdd_eq engine within (Nat.succ_ne_zero index))
        refine ⟨⟨added engine (slot index) user.toBlink, 0 :: results⟩, ?_, ?_⟩
        · rw [serve, Request.event, slotted]
          exact step_ioctl _ called results
        · rintro ⟨nodes, linked, -, unlisted, -⟩
          have holds := proper.holds.added (Nat.succ_ne_zero index)
            ((proper.unused index inside).1 free) user.toBlink
          rw [linked.unique holds.linked] at unlisted
          have again : mallocLoop (added engine (slot index) user.toBlink) (80 * 25) =
              slot index := by
            refine (mallocLoop_congr fun other _ => ?_).trans found
            by_cases same : slot other = slot index
            · rw [same, added_node_self, free]
              exact origin
            · rw [added_node_of_ne engine same]
          rw [mp1Malloc, again] at unlisted
          exact unlisted List.mem_cons_self
  | remove arg => exact absurd trivial harmful
  | find location => exact absurd trivial harmful
  | sync arg => exact absurd trivial harmful
  | tasklet => exact absurd trivial harmful

/-- A step keeps the list and the allocator sound exactly when it is harmless. -/
theorem harmless_iff {system : System} {items : List Listed} (proper : Proper system.engine items)
    (request : Request) :
    Harmless system request ↔ ∀ next, serve system request = .ok next → Sound next := by
  constructor
  · intro harmless next served
    obtain ⟨after, others, done, kept⟩ := proper.serve system.results request harmless
    have same : after = next := Except.ok.inj (done.symm.trans served)
    exact same ▸ kept.sound after.results
  · intro sound
    by_contra harmful
    obtain ⟨next, served, unsound⟩ := not_sound_of_harmful proper harmful
    exact unsound (sound next served)

theorem start_proper (video : Nat → UInt8) : Proper (start (fun _ => zeroed) video).engine [] where
  holds := ⟨rfl, fun _ member => absurd member List.not_mem_nil, Nat.zero_le _⟩
  slots _ member := absurd member List.not_mem_nil
  unused _ _ := iff_of_true rfl List.not_mem_nil

/-- The allocator never hands out a listed node exactly in the runs without an add at location 0
that gets memory. Such a run never stops. -/
theorem malloc_sound_iff (video : Nat → UInt8) (requests : List Request) :
    (Always Sound serve (start (fun _ => zeroed) video) requests ∧
      ∃ final, run serve (start (fun _ => zeroed) video) requests = .ok final) ↔
      Along Harmless serve (start (fun _ => zeroed) video) requests := by
  have initial := start_proper video
  have served (system : System) (request : Request) (next : System)
      (proper : ∃ items, Proper system.engine items) (harmless : Harmless system request)
      (stepped : serve system request = .ok next) : ∃ items, Proper next.engine items := by
    obtain ⟨items, proper⟩ := proper
    obtain ⟨after, others, done, kept⟩ := proper.serve system.results request harmless
    have same : after = next := Except.ok.inj (done.symm.trans stepped)
    exact same ▸ ⟨others, kept⟩
  constructor
  · rintro ⟨always, -⟩
    refine (always_iff_along_while (fun system => ∃ items, Proper system.engine items)
      (fun system request next proper _ stepped sound => ?_)
      (fun system request proper _ => ?_) ⟨[], initial⟩ (initial.sound []) requests).1 always
    · refine served system request next proper ?_ stepped
      obtain ⟨items, proper⟩ := proper
      refine (harmless_iff proper request).2 fun other done => ?_
      exact Except.ok.inj (stepped.symm.trans done) ▸ sound
    · obtain ⟨items, proper⟩ := proper
      exact harmless_iff proper request
  · intro allowed
    refine ⟨always_of_along (fun system => ∃ items, Proper system.engine items) served
      (fun system proper => ?_) ⟨[], initial⟩ allowed, ?_⟩
    · obtain ⟨items, proper⟩ := proper
      exact proper.sound system.results
    · cases reached : run serve (start (fun _ => zeroed) video) requests with
      | ok final => exact ⟨final, rfl⟩
      | error fault =>
          refine absurd reached fun stopped => ?_
          refine run_stops (fun system => ∃ items, Proper system.engine items) (fun _ => False)
            served (fun system request fault proper harmless stopped => ?_) ⟨[], initial⟩ allowed
            stopped
          obtain ⟨items, proper⟩ := proper
          obtain ⟨next, others, done, -⟩ := proper.serve system.results request harmless
          rw [stopped] at done
          cases done

/-- A structure at a location with equal periods. -/
def sampleUser (location : UInt16) : BlinkStruct := ⟨⟨location, 65, 66, 1, 1, 0, 0⟩, 0⟩

theorem serve_sample {engine : Engine} (results : List Int) {location : UInt16}
    (free : (engine.node (slot 0)).location = 0) (within : location.toNat < 2000) :
    serve ⟨engine, results⟩ (.add (sampleUser location)) =
      .ok ⟨added engine (slot 0) (sampleUser location).toBlink, 0 :: results⟩ := by
  have first : mallocLoop engine (1999 + 1) = slot 0 := mallocLoop_first free
  have malloc : mp1Malloc engine = slot 0 := first
  have called : mp1Ioctl engine (.add (sampleUser location) (slot 0)) = _ :=
    congrArg Except.ok (mp1IoctlAdd_eq engine within (Nat.succ_ne_zero 0))
  rw [serve, Request.event, malloc]
  exact step_ioctl _ called results

def sampleFirst : System :=
  ⟨added (start (fun _ => zeroed) fun _ => 0).engine (slot 0) (sampleUser 0).toBlink, [0]⟩

def sampleSecond : System :=
  ⟨added sampleFirst.engine (slot 0) (sampleUser 5).toBlink, [0, 0]⟩

/-- The second add gets the entry of the first one, and the node then follows itself. -/
theorem malloc_reuses :
    (∃ final, run serve (start (fun _ => zeroed) fun _ => 0)
      [.add (sampleUser 0), .add (sampleUser 5)] = .ok final ∧
        mp1RtcTasklet final.engine = .error .endless) ∧
      ¬ Always Sound serve (start (fun _ => zeroed) fun _ => 0)
        [.add (sampleUser 0), .add (sampleUser 5)] := by
  have first : serve (start (fun _ => zeroed) fun _ => 0) (.add (sampleUser 0)) = .ok sampleFirst :=
    serve_sample [] rfl (by decide)
  have second : serve sampleFirst (.add (sampleUser 5)) = .ok sampleSecond :=
    serve_sample [0] rfl (by decide)
  constructor
  · refine ⟨sampleSecond, ?_, rfl⟩
    rw [run_cons _ _ _ _ _ first, run_cons _ _ _ _ _ second]
    rfl
  · intro always
    have later := always.2 sampleFirst first
    obtain ⟨nodes, -, -, -, -, after, ticked⟩ := later.2 sampleSecond second
    have endless : mp1RtcTasklet sampleSecond.engine = .error .endless := rfl
    rw [endless] at ticked
    cases ticked

end ComputerSystems.Fish
