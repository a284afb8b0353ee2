import ComputerSystems.Construction.Fish.Blink
import ComputerSystems.Proof.Mp1.Refinement

namespace ComputerSystems.Fish

open Library Mp1

def Engine.link (engine : Engine) (address : Nat) : Nat := (engine.node address).next

/-- The nodes from the list head spell the listed structures. -/
structure Holds (engine : Engine) (items : List Listed) : Prop where
  linked : Links engine.link 0 engine.listHead (addresses items)
  held : ∀ item ∈ items, (engine.node item.address).toBlink = item.blink
  bounded : items.length ≤ engine.linked

section Blinks
variable (blink : Blink)

/-- The period of the structure is over when its countdown is not positive as a signed number. -/
def expires : Bool := ¬ 0 < (blink.countdown - 1).toBitVec.toInt

def toggled : Blink := { blink with
  countdown := if blink.status &&& 1 = 0 then blink.onLength else blink.offLength
  status := blink.status ^^^ 1 }

/-- The structure after one tick. -/
def ticked : Blink := if expires blink then toggled blink else blink.counted

/-- The character that a toggle draws. -/
def toggledChar : UInt8 := if blink.status &&& 1 = 0 then blink.onChar else blink.offChar

/-- The video memory after the tick of one structure. -/
def tickVideo (video : Nat → UInt8) : Nat → UInt8 :=
  if expires blink then Function.update video blink.cell (toggledChar blink) else video

@[simp] theorem ticked_location : (ticked blink).location = blink.location := by
  rw [ticked, apply_ite Blink.location]
  exact ite_self _

end Blinks

/-- A change of the fields of a node leaves the links alone. -/
theorem link_of_blink {engine after : Engine} {address : Nat} {blink : Blink}
    (node : after.node = Function.update engine.node address
      { engine.node address with toBlink := blink }) : after.link = engine.link := by
  have links := Function.comp_update BlinkStruct.next engine.node address
    { engine.node address with toBlink := blink }
  rw [← node] at links
  exact links.trans (Function.update_eq_self ..)

/-- One round of the loop ticks one node. -/
theorem taskletNode_eq (address : Nat) (engine : Engine) :
    taskletNode address engine = { engine with
      node := Function.update engine.node address
        { engine.node address with toBlink := ticked (engine.node address).toBlink }
      video := tickVideo (engine.node address).toBlink engine.video } := by
  rw [taskletNode, tickVideo, ticked]
  simp only [Engine.write, Function.update_self]
  by_cases runs : 0 < ((engine.node address).countdown - 1).toBitVec.toInt
  · have lasts : expires (engine.node address).toBlink = false := by
      rw [expires, decide_eq_false_iff_not]
      exact not_not.2 runs
    rw [if_pos runs, lasts]
    rfl
  · have ends : expires (engine.node address).toBlink = true := decide_eq_true runs
    rw [if_neg runs, ends, if_pos rfl, if_pos rfl, toggled, toggledChar]
    split_ifs with off
    · simp [Engine.mp1Poke, Blink.cell]
    · simp [Engine.mp1Poke, Blink.cell]

/-- The loop of the tasklet ticks the listed structures and nothing else. -/
theorem taskletLoop_eq {engine : Engine} {fuel address : Nat} {items : List Listed}
    (linked : Links engine.link 0 address (addresses items))
    (held : ∀ item ∈ items, (engine.node item.address).toBlink = item.blink)
    (enough : items.length < fuel) :
    ∃ after, taskletLoop fuel address engine = .ok after ∧
      after.listHead = engine.listHead ∧ after.linked = engine.linked ∧
      after.link = engine.link ∧
      (∀ other ∉ addresses items, after.node other = engine.node other) ∧
      (∀ item ∈ items, (after.node item.address).toBlink = ticked item.blink) ∧
      after.video = items.foldl (fun video item => tickVideo item.blink video) engine.video := by
  induction items generalizing fuel address engine with
  | nil =>
      have done : address = 0 := linked
      obtain ⟨fuel, rfl⟩ := Nat.exists_eq_succ_of_ne_zero (Nat.ne_of_gt enough)
      refine ⟨engine, ?_, rfl, rfl, rfl, fun _ _ => rfl, fun _ member => ?_, rfl⟩
      · rw [taskletLoop, if_pos done]
      · cases member
  | cons item rest ih =>
      have unique := linked.nodup
      obtain ⟨rfl, real, later⟩ := linked
      rw [addresses, List.map_cons, List.nodup_cons] at unique
      obtain ⟨fuel, rfl⟩ := Nat.exists_eq_succ_of_ne_zero (Nat.ne_of_gt (Nat.zero_lt_of_lt enough))
      have own := held item List.mem_cons_self
      obtain ⟨middle, passed⟩ : ∃ middle, taskletNode item.address engine = middle := ⟨_, rfl⟩
      have round := taskletNode_eq item.address engine
      rw [passed] at round
      have node := congrArg Engine.node round
      have link := link_of_blink node
      have apart : ∀ other ≠ item.address, middle.node other = engine.node other := by
        intro other different
        rw [node]
        exact Function.update_of_ne different ..
      obtain ⟨after, walked, head, count, links, frame, fields, video⟩ :=
        ih (link ▸ later)
          (fun other member => by
            rw [apart other.address fun same => unique.1 (same ▸ List.mem_map_of_mem member)]
            exact held other (List.mem_cons_of_mem item member))
          (Nat.lt_of_succ_lt_succ enough)
      refine ⟨after, ?_, ?_, ?_, links.trans link, fun other absent => ?_,
        fun other member => ?_, ?_⟩
      · rw [taskletLoop, if_neg real, passed]
        have onward : (middle.node item.address).next = engine.link item.address :=
          congrFun link item.address
        simp only [onward]
        rwa [link] at walked
      · rw [head, round]
      · rw [count, round]
      · rw [addresses, List.map_cons, List.mem_cons, not_or] at absent
        rw [frame other absent.2, apart other absent.1]
      · rcases List.mem_cons.1 member with same | listed
        · subst same
          rw [frame other.address unique.1, node]
          simp only [Function.update_self, own]
        · exact fields other listed
      · rw [video, List.foldl_cons, round, own]

/-- The search walks the listed structures in order. -/
theorem findLoop_eq {engine : Engine} {location : UInt16} {fuel address : Nat}
    {items : List Listed} (linked : Links engine.link 0 address (addresses items))
    (held : ∀ item ∈ items, (engine.node item.address).toBlink = item.blink)
    (enough : items.length < fuel) :
    findLoop engine location fuel address = .ok (pointer (Board.first items location)) := by
  induction items generalizing fuel address with
  | nil =>
      have done : address = 0 := linked
      obtain ⟨fuel, rfl⟩ := Nat.exists_eq_succ_of_ne_zero (Nat.ne_of_gt enough)
      rw [findLoop, if_pos done]
      rfl
  | cons item rest ih =>
      obtain ⟨rfl, real, later⟩ := linked
      obtain ⟨fuel, rfl⟩ := Nat.exists_eq_succ_of_ne_zero (Nat.ne_of_gt (Nat.zero_lt_of_lt enough))
      have same : (engine.node item.address).location = item.blink.location :=
        congrArg Blink.location (held item List.mem_cons_self)
      rw [findLoop, if_neg real, same]
      by_cases hit : item.blink.location = location
      · rw [if_pos hit, Board.first, List.find?_cons_of_pos (by simpa using hit)]
        rfl
      · rw [if_neg hit, Board.first, List.find?_cons_of_neg (by simpa using hit)]
        exact ih later (fun other member => held other (List.mem_cons_of_mem item member))
          (Nat.lt_of_succ_lt_succ enough)

/-- The link that is reached over some nodes. -/
def behind (link : Link) : List Nat → Link
  | [] => link
  | node :: rest => behind (.next node) rest

theorem behind_concat (link : Link) (front : List Nat) (last : Nat) :
    behind link (front ++ [last]) = .next last := by
  induction front generalizing link with
  | nil => rfl
  | cons node rest ih => exact ih (.next node)

/-- The loop of the remove ends at the link that holds its target. -/
theorem removeFindPrev_eq {engine : Engine} {fuel target : Nat} {link : Link}
    {front rest : List Nat}
    (linked : Links engine.link 0 (engine.deref link) (front ++ target :: rest))
    (enough : front.length < fuel) :
    removeFindPrev engine target fuel link = .ok (behind link front) := by
  induction front generalizing fuel link with
  | nil =>
      obtain ⟨fuel, rfl⟩ := Nat.exists_eq_succ_of_ne_zero (Nat.ne_of_gt enough)
      rw [removeFindPrev, if_pos linked.1]
      rfl
  | cons node front ih =>
      obtain ⟨fuel, rfl⟩ := Nat.exists_eq_succ_of_ne_zero (Nat.ne_of_gt (Nat.zero_lt_of_lt enough))
      have unique := linked.nodup
      obtain ⟨here, real, later⟩ := linked
      have other : node ≠ target := by
        rw [List.cons_append, List.nodup_cons, List.mem_append, not_or] at unique
        exact fun same => unique.1.2 (same ▸ List.mem_cons_self)
      rw [removeFindPrev, here, if_neg other, if_neg real]
      exact ih later (Nat.lt_of_succ_lt_succ enough)

/-- The store of a remove makes the links skip its target. -/
theorem store_skips {engine : Engine} {target : Nat} {front rest : List Nat}
    (linked : Links engine.link 0 engine.listHead (front ++ target :: rest)) :
    ∃ after, engine.store (engine.link target) (behind .listHead front) = after ∧
      Links after.link 0 after.listHead (front ++ rest) ∧
      (∀ other, (after.node other).toBlink = (engine.node other).toBlink) ∧
      after.video = engine.video ∧ after.linked = engine.linked := by
  refine ⟨_, rfl, ?_⟩
  rcases List.eq_nil_or_concat front with rfl | ⟨earlier, before, rfl⟩
  · exact ⟨linked.2.2, fun _ => rfl, rfl, rfl⟩
  · rw [List.concat_eq_append] at linked ⊢
    rw [behind_concat]
    refine ⟨?_, fun other => ?_, rfl, rfl⟩
    · rw [List.append_assoc] at linked ⊢
      have link : (engine.store (engine.link target) (.next before)).link =
          Function.update engine.link before (engine.link target) :=
        Function.comp_update BlinkStruct.next engine.node before _
      rw [link]
      exact linked.skip
    · have fields := Function.comp_update BlinkStruct.toBlink engine.node before
        { engine.node before with next := engine.link target }
      exact congrFun (fields.trans (Function.update_eq_self ..)) other

theorem step_ioctl {engine after : Engine} {result : Int} (call : Call)
    (called : mp1Ioctl engine call = .ok (result, after)) (results : List Int) :
    step ⟨engine, results⟩ (.ioctl call) = .ok ⟨after, result :: results⟩ := by
  rw [step, called]
  rfl

/-- The engine after the add of a structure. -/
def added (engine : Engine) (address : Nat) (blink : Blink) : Engine where
  listHead := address
  node := Function.update engine.node address ⟨blink.lit, engine.listHead⟩
  video := Function.update engine.video blink.cell blink.onChar
  linked := engine.linked + 1

@[simp] theorem added_node_self (engine : Engine) (address : Nat) (blink : Blink) :
    (added engine address blink).node address = ⟨blink.lit, engine.listHead⟩ :=
  Function.update_self ..

theorem added_node_of_ne (engine : Engine) {address other : Nat} (different : other ≠ address)
    (blink : Blink) : (added engine address blink).node other = engine.node other :=
  Function.update_of_ne different ..

theorem mp1IoctlAdd_eq {user : BlinkStruct} {allocated : Nat} (engine : Engine)
    (within : user.location.toNat < 2000) (real : allocated ≠ 0) :
    mp1IoctlAdd user allocated engine = (0, added engine allocated user.toBlink) := by
  have inside : ¬ 80 * 25 ≤ user.location.toNat := not_le.2 within
  rw [mp1IoctlAdd]
  simp only [ece391Memcpy, ne_eq, not_true_eq_false, if_false, if_neg inside, if_neg real]
  simp [added, Engine.write, Engine.mp1Poke, Blink.lit, Blink.cell]

theorem mp1IoctlAdd_fails {user : BlinkStruct} {allocated : Nat} (engine : Engine)
    (fails : 2000 ≤ user.location.toNat ∨ allocated = 0) :
    mp1IoctlAdd user allocated engine = (-1, engine) := by
  by_cases outside : 80 * 25 ≤ user.location.toNat
  · rw [mp1IoctlAdd]
    simp only [ece391Memcpy, ne_eq, not_true_eq_false, if_false]
    exact if_pos outside
  · have null := fails.resolve_left outside
    rw [mp1IoctlAdd]
    simp only [ece391Memcpy, ne_eq, not_true_eq_false, if_false]
    exact (if_neg outside).trans (if_pos null)

namespace Holds

variable {engine : Engine} {items : List Listed}

theorem nodup (holds : Holds engine items) : (addresses items).Nodup := holds.linked.nodup

theorem real (holds : Holds engine items) {item : Listed} (member : item ∈ items) :
    item.address ≠ 0 := by
  intro null
  exact holds.linked.nil_notMem (null ▸ List.mem_map_of_mem member)

theorem mp1FindHelper_eq (holds : Holds engine items) (location : UInt16) :
    mp1FindHelper engine location = .ok (pointer (Board.first items location)) :=
  findLoop_eq holds.linked holds.held (Nat.lt_succ_of_le holds.bounded)

/-- A change of memory that is not listed keeps the list. -/
theorem frame (holds : Holds engine items) {after : Engine} {address : Nat}
    (fresh : address ∉ addresses items) (head : after.listHead = engine.listHead)
    (count : engine.linked ≤ after.linked)
    (node : ∀ other ≠ address, after.node other = engine.node other) : Holds after items where
  linked := by
    rw [head]
    refine holds.linked.congr fun other member => congrArg BlinkStruct.next (node other ?_)
    exact fun same => fresh (same ▸ member)
  held item member := by
    rw [node item.address fun same => fresh (same ▸ List.mem_map_of_mem member)]
    exact holds.held item member
  bounded := holds.bounded.trans count

/-- The tasklet ticks the listed structures. -/
theorem tick (holds : Holds engine items) : ∃ after, mp1RtcTasklet engine = .ok after ∧
    Holds after (items.map fun item => { item with blink := ticked item.blink }) ∧
    (∀ address, (after.node address).location = (engine.node address).location) ∧
    after.video = items.foldl (fun video item => tickVideo item.blink video) engine.video := by
  obtain ⟨after, walked, head, count, link, frame, fields, video⟩ :=
    taskletLoop_eq holds.linked holds.held (Nat.lt_succ_of_le holds.bounded)
  have same : addresses (items.map fun item => { item with blink := ticked item.blink }) =
      addresses items := by
    rw [addresses, addresses, List.map_map]
    rfl
  refine ⟨after, walked, ⟨?_, fun item member => ?_, ?_⟩, fun address => ?_, video⟩
  · rw [link, head, same]
    exact holds.linked
  · obtain ⟨old, listed, rfl⟩ := List.mem_map.1 member
    exact fields old listed
  · rw [List.length_map, count]
    exact holds.bounded
  · by_cases listed : address ∈ addresses items
    · obtain ⟨item, member, rfl⟩ := List.mem_map.1 listed
      rw [fields item member, holds.held item member, ticked_location]
    · rw [frame address listed]

/-- An add with memory that is not listed puts its structure in front. -/
theorem added (holds : Holds engine items) {allocated : Nat} (real : allocated ≠ 0)
    (fresh : allocated ∉ addresses items) (blink : Blink) :
    Holds (added engine allocated blink) (⟨allocated, blink.lit⟩ :: items) where
  linked := by
    have link : (Fish.added engine allocated blink).link =
        Function.update engine.link allocated engine.listHead :=
      Function.comp_update BlinkStruct.next engine.node allocated _
    rw [link]
    exact holds.linked.push fresh real
  held item member := by
    rcases List.mem_cons.1 member with same | old
    · subst same
      simp
    · have apart : item.address ≠ allocated := fun same =>
        fresh (same ▸ List.mem_map_of_mem old)
      rw [added_node_of_ne engine apart]
      exact holds.held item old
  bounded := Nat.succ_le_succ holds.bounded

/-- A remove takes the first structure with its location off the list, and clears its memory. -/
theorem remove {item : Listed} {front rest : List Listed}
    (holds : Holds engine (front ++ item :: rest)) {arg : BitVec 32}
    (hit : Board.first (front ++ item :: rest) ⟨arg.setWidth 16⟩ = some item) :
    ∃ after, mp1IoctlRemove arg engine = .ok (0, after) ∧ Holds after (front ++ rest) ∧
      after.node item.address = zeroed ∧
      (∀ other ≠ item.address, (after.node other).toBlink = (engine.node other).toBlink) ∧
      after.video = engine.video := by
  have member : item ∈ front ++ item :: rest := List.mem_append_right _ List.mem_cons_self
  have searched := holds.mp1FindHelper_eq ⟨arg.setWidth 16⟩
  obtain ⟨previous, shape⟩ := Nat.exists_eq_succ_of_ne_zero (holds.real member)
  rw [hit, pointer, Option.elim_some, shape] at searched
  have linked : Links engine.link 0 engine.listHead
      (addresses front ++ item.address :: addresses rest) := by
    simpa [addresses] using holds.linked
  have short : (addresses front).length < engine.fuel := by
    have bounded := holds.bounded
    simp only [addresses, Engine.fuel, List.length_append, List.length_cons,
      List.length_map] at bounded ⊢
    omega
  have walked : removeFindPrev engine item.address engine.fuel .listHead = _ :=
    removeFindPrev_eq linked short
  obtain ⟨middle, stored, skipped, fields, video, count⟩ := store_skips linked
  have unlisted : item.address ∉ addresses (front ++ rest) := by
    have unique := holds.nodup
    rw [addresses, List.map_append, List.map_cons] at unique
    rw [addresses, List.map_append]
    exact (List.nodup_cons.1 (List.nodup_middle.1 unique)).1
  have kept : Holds middle (front ++ rest) := by
    refine ⟨by simpa [addresses] using skipped, fun other listed => ?_, ?_⟩
    · rw [fields]
      refine holds.held other (List.mem_append.2 ?_)
      exact (List.mem_append.1 listed).imp_right (List.mem_cons_of_mem item)
    · have bounded := holds.bounded
      rw [List.length_append, List.length_cons] at bounded
      rw [count, List.length_append]
      omega
  refine ⟨mp1Free middle item.address, ?_, ?_, ?_, fun other different => ?_, video⟩
  · rw [mp1IoctlRemove, searched]
    simp only
    rw [← shape, walked]
    exact congrArg (fun engine => Except.ok (0, mp1Free engine item.address)) stored
  · refine kept.frame unlisted rfl le_rfl fun other different => ?_
    exact Function.update_of_ne different ..
  · exact Function.update_self ..
  · rw [← fields]
    exact congrArg BlinkStruct.toBlink (Function.update_of_ne different ..)

theorem remove_absent (holds : Holds engine items) {arg : BitVec 32}
    (absent : Board.first items ⟨arg.setWidth 16⟩ = none) :
    mp1IoctlRemove arg engine = .ok (-1, engine) := by
  have searched := holds.mp1FindHelper_eq ⟨arg.setWidth 16⟩
  rw [absent] at searched
  rw [mp1IoctlRemove, searched]
  rfl

/-- A find only answers. -/
theorem find (holds : Holds engine items) (location : UInt16) :
    mp1IoctlFind location engine =
      .ok (if Board.first items location = none then -1 else 0, engine) := by
  have searched := holds.mp1FindHelper_eq location
  rw [mp1IoctlFind]
  simp only [ece391Memcpy, ne_eq, not_true_eq_false, if_false, searched]
  cases hit : Board.first items location with
  | none => rfl
  | some item =>
      obtain ⟨previous, shape⟩ :=
        Nat.exists_eq_succ_of_ne_zero (holds.real (Board.first_some hit).1)
      rw [pointer, Option.elim_some, shape]
      rfl

/-- A change of the timing of one listed structure keeps the list. -/
theorem retime (holds : Holds engine items) {after : Engine} {address : Nat}
    {change : Blink → Blink} (head : after.listHead = engine.listHead)
    (count : after.linked = engine.linked)
    (node : after.node = Function.update engine.node address
      { engine.node address with toBlink := change (engine.node address).toBlink }) :
    Holds after (Board.retime items address change) where
  linked := by
    rw [link_of_blink node, head, addresses_retime]
    exact holds.linked
  held item member := by
    obtain ⟨old, listed, rfl⟩ := List.mem_map.1 member
    rw [node]
    by_cases same : old.address = address
    · subst same
      simp only [if_pos, Function.update_self, holds.held old listed]
    · simp only [if_neg same, Function.update_of_ne same]
      exact holds.held old listed
  bounded := by
    rw [Board.retime, List.length_map, count]
    exact holds.bounded

theorem low_half (arg : BitVec 32) : (arg &&& 0xFFFF).setWidth 16 = arg.setWidth 16 := by
  have ones : (0xFFFF : BitVec 32).setWidth 16 = BitVec.allOnes 16 := rfl
  rw [BitVec.setWidth_and, ones, BitVec.and_allOnes]

/-- The sync copies the timing to the second location. -/
theorem sync (holds : Holds engine items) {arg : BitVec 32} {leader follower : Listed}
    (hit : Board.first items ⟨(arg >>> 16).setWidth 16⟩ = some leader)
    (second : Board.first items ⟨arg.setWidth 16⟩ = some follower) :
    ∃ after, mp1IoctlSync arg engine = .ok (0, after) ∧
      Holds after (Board.retime items follower.address leader.blink.follow) ∧
      (∀ address, (after.node address).location = (engine.node address).location) ∧
      after.video = Function.update engine.video follower.blink.cell
        (syncChar (leader.blink.follow follower.blink)) := by
  have searched := holds.mp1FindHelper_eq ⟨(arg >>> 16).setWidth 16⟩
  have again := holds.mp1FindHelper_eq ⟨(arg &&& 0xFFFF).setWidth 16⟩
  have leads := (Board.first_some hit).1
  have follows := (Board.first_some second).1
  rw [low_half, second, pointer, Option.elim_some] at again
  rw [hit, pointer, Option.elim_some] at searched
  obtain ⟨_, shape⟩ := Nat.exists_eq_succ_of_ne_zero (holds.real leads)
  obtain ⟨_, other⟩ := Nat.exists_eq_succ_of_ne_zero (holds.real follows)
  rw [shape] at searched
  rw [other] at again
  rw [mp1IoctlSync, searched, low_half, again]
  simp only
  rw [← shape, ← other]
  have source := holds.held leader leads
  have target := holds.held follower follows
  refine ⟨_, rfl, holds.retime rfl rfl ?_, fun address => ?_, ?_⟩
  · rw [← source]
    rfl
  · by_cases same : address = follower.address
    · simp [Engine.mp1Poke, Engine.write, same]
    · simp [Engine.mp1Poke, Engine.write, same]
  · simp only [Engine.mp1Poke, Engine.write, Function.update_self]
    rw [← source, ← target]
    rfl

theorem sync_absent (holds : Holds engine items) {arg : BitVec 32}
    (absent : Board.first items ⟨(arg >>> 16).setWidth 16⟩ = none ∨
      Board.first items ⟨arg.setWidth 16⟩ = none) :
    mp1IoctlSync arg engine = .ok (-1, engine) := by
  have searched := holds.mp1FindHelper_eq ⟨(arg >>> 16).setWidth 16⟩
  have again := holds.mp1FindHelper_eq ⟨(arg &&& 0xFFFF).setWidth 16⟩
  rw [mp1IoctlSync, searched]
  cases hit : Board.first items ⟨(arg >>> 16).setWidth 16⟩ with
  | none => rfl
  | some leader =>
      have missing := absent.resolve_left (hit ▸ Option.some_ne_none leader)
      obtain ⟨_, shape⟩ := Nat.exists_eq_succ_of_ne_zero (holds.real (Board.first_some hit).1)
      rw [low_half, missing] at again
      rw [pointer, Option.elim_some, shape, low_half, again]
      rfl

end Holds

end ComputerSystems.Fish
