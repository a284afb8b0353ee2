import ComputerSystems.Proof.Fish.Allocator
import ComputerSystems.Proof.Fish.Comparison

namespace ComputerSystems.Fish

open Library Mp1

/-- The structure that blinks at each location. -/
abbrev Cast : Type := Nat → Option Blink

/-- The video memory that shows a cast over a background. -/
def picture (background : Nat → UInt8) (cast : Cast) (offset : Nat) : UInt8 :=
  if offset % 2 = 0 then (cast (offset / 2)).elim (background offset) Blink.shown
  else background offset

/-- The structure runs, and no period is too long for the signed test. -/
structure Paced (blink : Blink) : Prop extends Running blink where
  shortCount : blink.countdown.toNat ≤ 2 ^ 15
  shortOn : blink.onLength.toNat ≤ 2 ^ 15
  shortOff : blink.offLength.toNat ≤ 2 ^ 15

/-- The engine blinks the cast and shows it over the background. -/
structure Stages (background : Nat → UInt8) (cast : Cast) (engine : Engine) (items : List Listed) :
    Prop where
  proper : Proper engine items
  distinct : (items.map fun item => item.blink.location).Nodup
  within : ∀ item ∈ items, 0 < item.blink.location.toNat ∧ item.blink.location.toNat < 2000
  paced : ∀ item ∈ items, Paced item.blink
  lists : ∀ location blink, cast location = some blink ↔
    ∃ item ∈ items, item.blink = blink ∧ blink.location.toNat = location
  video : engine.video = picture background cast

theorem Paced.ticked {blink : Blink} (paced : Paced blink) : Paced blink.ticked := by
  refine ⟨paced.toRunning.ticked, ?_, ?_, ?_⟩
  · rw [Blink.ticked]
    split_ifs
    · exact paced.shortOn
    · exact paced.shortOff
    · have counted := counted_toNat paced.countdown
      have short := paced.shortCount
      change (blink.countdown - 1).toNat ≤ 2 ^ 15
      omega
  · rw [Blink.ticked]
    split_ifs
    · exact paced.shortOn
    · exact paced.shortOn
    · exact paced.shortOn
  · rw [Blink.ticked]
    split_ifs
    · exact paced.shortOff
    · exact paced.shortOff
    · exact paced.shortOff

/-- The character of a new or changed structure is drawn. -/
theorem picture_update (background : Nat → UInt8) (cast : Cast) {blink : Blink} {location : Nat}
    (same : blink.location.toNat = location) :
    Function.update (picture background cast) blink.cell blink.shown =
      picture background (Function.update cast location (some blink)) := by
  subst same
  funext offset
  rw [Function.update_apply, picture, picture, Blink.cell, Function.update_apply]
  by_cases even : offset % 2 = 0
  · rw [if_pos even, if_pos even]
    by_cases here : offset = 2 * blink.location.toNat
    · rw [if_pos here, if_pos (by omega)]
      rfl
    · rw [if_neg here, if_neg (by omega)]
  · rw [if_neg even, if_neg even, if_neg (by omega)]

/-- A structure that goes leaves its character behind. -/
theorem picture_leaves (background : Nat → UInt8) {cast : Cast} {blink : Blink} {location : Nat}
    (found : cast location = some blink) :
    picture background cast = picture (Function.update background (2 * location) blink.shown)
      (Function.update cast location none) := by
  funext offset
  rw [picture, picture, Function.update_apply, Function.update_apply]
  by_cases even : offset % 2 = 0
  · rw [if_pos even, if_pos even]
    by_cases here : offset = 2 * location
    · have half : offset / 2 = location := by omega
      rw [if_pos here, if_pos half, half, found]
      rfl
    · rw [if_neg here, if_neg (by omega)]
  · rw [if_neg even, if_neg even, if_neg (by omega)]

namespace Stages

variable {background : Nat → UInt8} {cast : Cast} {engine : Engine} {items : List Listed}

theorem first (stages : Stages background cast engine items) {location : UInt16} {blink : Blink}
    (found : cast location.toNat = some blink) :
    ∃ item, Board.first items location = some item ∧ item.blink = blink := by
  obtain ⟨item, member, rfl, same⟩ := (stages.lists _ _).1 found
  have place : item.blink.location = location := UInt16.toNat.inj same
  have hit : Board.first (Board.mk items ⟨engine.video, []⟩ []).items item.blink.location =
      some item := Board.first_of_mem stages.distinct member
  rw [place] at hit
  exact ⟨item, hit, rfl⟩

/-- The entries of the array outnumber the locations, so the allocator finds one. -/
theorem malloc (stages : Stages background cast engine items) :
    ∃ index < 80 * 25, mp1Malloc engine = slot index ∧
      (engine.node (slot index)).location = 0 := by
  rcases mallocLoop_cases engine (80 * 25) with ⟨-, taken⟩ | found
  · have all : (List.range (80 * 25)).map slot ⊆ addresses items := by
      intro address member
      obtain ⟨index, inside, rfl⟩ := List.mem_map.1 member
      exact not_not.1 fun unlisted => taken index (List.mem_range.1 inside)
        ((stages.proper.unused index (List.mem_range.1 inside)).2 unlisted)
    have many := (List.subperm_of_subset (List.nodup_range.map (Nat.succ_injective)) all).length_le
    have places : items.map (fun item => item.blink.location.toNat) ⊆ List.range' 1 1999 := by
      intro place member
      obtain ⟨item, listed, rfl⟩ := List.mem_map.1 member
      have within := stages.within item listed
      rw [List.mem_range'_1]
      omega
    have unique : (items.map fun item => item.blink.location.toNat).Nodup := by
      have mapped := stages.distinct.map (f := UInt16.toNat) fun _ _ => UInt16.toNat.inj
      rwa [List.map_map] at mapped
    have few := (List.subperm_of_subset unique places).length_le
    simp only [List.length_map, List.length_range, addresses, List.length_range'] at many few
    omega
  · exact found

/-- A structure at a free location joins the cast. -/
theorem add (stages : Stages background cast engine items) (results : List Int)
    {user : BlinkStruct} (paced : Paced user.toBlink.lit) (used : 0 < user.location.toNat)
    (inside : user.location.toNat < 2000) (free : cast user.location.toNat = none) :
    ∃ after others, serve ⟨engine, results⟩ (.add user) = .ok ⟨after, 0 :: results⟩ ∧
      Stages background (Function.update cast user.location.toNat (some user.toBlink.lit)) after
        others := by
  obtain ⟨index, within, found, unused⟩ := stages.malloc
  have called : mp1Ioctl engine (.add user (slot index)) = _ :=
    congrArg Except.ok (mp1IoctlAdd_eq engine inside (Nat.succ_ne_zero index))
  have nonzero : user.location ≠ 0 := by
    intro zero
    rw [zero] at used
    exact absurd used (by decide)
  have absent : ∀ item ∈ items, item.blink.location ≠ user.location := by
    intro item member same
    have listed := (stages.lists user.location.toNat item.blink).2
      ⟨item, member, rfl, congrArg UInt16.toNat same⟩
    rw [free] at listed
    cases listed
  refine ⟨_, _, ?_, stages.proper.added within unused nonzero, ?_, ?_, ?_, ?_, ?_⟩
  · rw [serve, Request.event, found]
    exact step_ioctl _ called results
  · rw [List.map_cons, List.nodup_cons, List.mem_map]
    refine ⟨?_, stages.distinct⟩
    rintro ⟨item, member, same⟩
    exact absent item member same
  · intro item member
    rcases List.mem_cons.1 member with rfl | old
    · exact ⟨used, inside⟩
    · exact stages.within item old
  · intro item member
    rcases List.mem_cons.1 member with rfl | old
    · exact paced
    · exact stages.paced item old
  · intro location blink
    rw [Function.update_apply]
    split_ifs with here
    · subst here
      constructor
      · rintro ⟨rfl⟩
        exact ⟨_, List.mem_cons_self, rfl, rfl⟩
      · rintro ⟨item, member, rfl, same⟩
        rcases List.mem_cons.1 member with rfl | old
        · rfl
        · exact absurd (UInt16.toNat.inj same) (absent item old)
    · rw [stages.lists]
      constructor
      · rintro ⟨item, member, rfl, same⟩
        exact ⟨item, List.mem_cons_of_mem _ member, rfl, same⟩
      · rintro ⟨item, member, rfl, same⟩
        rcases List.mem_cons.1 member with rfl | old
        · exact absurd same.symm here
        · exact ⟨item, old, rfl, same⟩
  · change Function.update engine.video user.toBlink.lit.cell user.toBlink.lit.shown = _
    rw [stages.video]
    exact picture_update background cast rfl

/-- A structure outside the screen is not taken. -/
theorem add_outside (engine : Engine) (results : List Int) {user : BlinkStruct}
    (outside : 2000 ≤ user.location.toNat) :
    serve ⟨engine, results⟩ (.add user) = .ok ⟨engine, -1 :: results⟩ := by
  have called : mp1Ioctl engine (.add user (mp1Malloc engine)) = .ok (-1, engine) :=
    congrArg Except.ok (mp1IoctlAdd_fails engine (.inl outside))
  exact step_ioctl _ called results

/-- The tasklet ticks the whole cast. -/
theorem tick (stages : Stages background cast engine items) (results : List Int) :
    ∃ after others, serve ⟨engine, results⟩ .tasklet = .ok ⟨after, results⟩ ∧
      Stages background (fun location => (cast location).map Blink.ticked) after others := by
  obtain ⟨after, ticked, holds, locations, video⟩ := stages.proper.holds.tick
  have alike : ∀ item ∈ items, Fish.ticked item.blink = item.blink.ticked := fun item member =>
    (ticked_eq_iff (stages.paced item member).toRunning).2 (stages.paced item member).shortCount
  have same : (items.map fun item => { item with blink := Fish.ticked item.blink }) =
      items.map fun item => { item with blink := item.blink.ticked } := by
    refine List.map_congr_left fun item member => ?_
    rw [alike item member]
  rw [same] at holds
  have shows : ∀ item ∈ items, engine.video item.blink.cell = item.blink.shown := by
    intro item member
    have found := (stages.lists item.blink.location.toNat item.blink).2 ⟨item, member, rfl, rfl⟩
    rw [stages.video, picture, Blink.cell, if_pos (by omega), Nat.mul_div_cancel_left _ two_pos,
      found]
    rfl
  have drawn : after.video = ((Screen.mk engine.video []).tick items).video := by
    rw [tick_video_eq (fun item member => (stages.paced item member).toRunning)
      (fun item member => (stages.paced item member).shortCount), video, blinks, List.foldl_map]
  refine ⟨after, _, ?_, stages.proper.relocate holds ?_ locations, ?_, ?_, ?_, ?_, ?_⟩
  · rw [serve, Request.event, step, ticked]
    rfl
  · rw [addresses, addresses, List.map_map]
    rfl
  · rw [List.map_map]
    have places : ((fun item : Listed => item.blink.location) ∘ fun item : Listed =>
        ({ item with blink := item.blink.ticked } : Listed)) = fun item => item.blink.location :=
      funext fun item => Blink.ticked_location item.blink
    rw [places]
    exact stages.distinct
  · intro item member
    obtain ⟨old, listed, rfl⟩ := List.mem_map.1 member
    dsimp only
    rw [Blink.ticked_location]
    exact stages.within old listed
  · intro item member
    obtain ⟨old, listed, rfl⟩ := List.mem_map.1 member
    exact (stages.paced old listed).ticked
  · intro location blink
    rw [Option.map_eq_some_iff]
    constructor
    · rintro ⟨before, found, rfl⟩
      obtain ⟨item, member, rfl, place⟩ := (stages.lists _ _).1 found
      refine ⟨_, List.mem_map_of_mem member, rfl, ?_⟩
      rw [Blink.ticked_location]
      exact place
    · rintro ⟨item, member, rfl, place⟩
      obtain ⟨old, listed, rfl⟩ := List.mem_map.1 member
      dsimp only at place ⊢
      rw [Blink.ticked_location] at place
      exact ⟨old.blink, (stages.lists _ _).2 ⟨old, listed, rfl, place⟩, rfl⟩
  · rw [drawn]
    funext offset
    by_cases held : ∃ item ∈ items, offset = item.blink.cell
    · obtain ⟨item, member, rfl⟩ := held
      have found := (stages.lists item.blink.location.toNat item.blink).2 ⟨item, member, rfl, rfl⟩
      rw [Screen.tick_video _ stages.distinct shows item member, picture, Blink.cell,
        if_pos (by omega), Nat.mul_div_cancel_left _ two_pos, found]
      rfl
    · rw [Screen.tick_video_of_notMem _ fun item member same => held ⟨item, member, same⟩]
      change engine.video offset = _
      rw [stages.video, picture, picture]
      by_cases even : offset % 2 = 0
      · rw [if_pos even, if_pos even]
        cases found : cast (offset / 2) with
        | none => rfl
        | some blink =>
            obtain ⟨item, member, rfl, place⟩ := (stages.lists _ _).1 found
            exact absurd ⟨item, member, by rw [Blink.cell]; omega⟩ held
      · rw [if_neg even, if_neg even]

/-- A follower takes the timing of a leader that is off. -/
theorem sync (stages : Stages background cast engine items) (results : List Int) {arg : BitVec 32}
    {source target : UInt16} {leader follower : Blink}
    (high : (⟨(arg >>> 16).setWidth 16⟩ : UInt16) = source)
    (low : (⟨arg.setWidth 16⟩ : UInt16) = target)
    (leads : cast source.toNat = some leader) (follows : cast target.toNat = some follower)
    (off : leader.status = 0) :
    ∃ after others, serve ⟨engine, results⟩ (.sync arg) = .ok ⟨after, 0 :: results⟩ ∧
      Stages background (Function.update cast target.toNat (some (leader.follow follower))) after
        others := by
  obtain ⟨first, hit, rfl⟩ := stages.first leads
  obtain ⟨second, also, rfl⟩ := stages.first follows
  have member := (Board.first_some hit).1
  have listed := (Board.first_some also).1
  have place : second.blink.location = target := by simpa using (Board.first_some also).2
  obtain ⟨after, synced, holds, locations, video⟩ :=
    stages.proper.holds.sync (high ▸ hit) (low ▸ also)
  have own (item : Listed) (inside : item ∈ items) (same : item.address = second.address) :
      item = second := List.inj_on_of_nodup_map stages.proper.holds.nodup inside listed same
  refine ⟨after, _, step_ioctl (.sync arg) synced results,
    stages.proper.relocate holds (addresses_retime ..) locations, ?_, ?_, ?_, ?_, ?_⟩
  · have kept : (Board.retime items second.address first.blink.follow).map
        (fun item => item.blink.location) = _ := Board.retime_locations fun _ => rfl
    rw [kept]
    exact stages.distinct
  · intro item inside
    obtain ⟨old, before, rfl⟩ := List.mem_map.1 inside
    split_ifs
    · exact stages.within old before
    · exact stages.within old before
  · intro item inside
    obtain ⟨old, before, rfl⟩ := List.mem_map.1 inside
    split_ifs
    · have paced := stages.paced first member
      exact ⟨paced.toRunning.follow old.blink, paced.shortCount, paced.shortOn, paced.shortOff⟩
    · exact stages.paced old before
  · intro location blink
    rw [Function.update_apply]
    split_ifs with here
    · subst here
      constructor
      · rintro ⟨rfl⟩
        refine ⟨_, List.mem_map_of_mem listed, ?_, congrArg UInt16.toNat place⟩
        rw [if_pos rfl]
      · rintro ⟨item, inside, rfl, same⟩
        obtain ⟨old, before, rfl⟩ := List.mem_map.1 inside
        split_ifs at same ⊢ with address
        · rw [own old before address]
        · have equal : old.blink.location = second.blink.location :=
            (UInt16.toNat.inj same).trans place.symm
          exact absurd (congrArg Listed.address
            (List.inj_on_of_nodup_map stages.distinct before listed equal)) address
    · rw [stages.lists]
      constructor
      · rintro ⟨item, inside, rfl, same⟩
        refine ⟨_, List.mem_map_of_mem inside, ?_, same⟩
        rw [if_neg]
        intro address
        rw [own item inside address, place] at same
        exact here same.symm
      · rintro ⟨item, inside, rfl, same⟩
        obtain ⟨old, before, rfl⟩ := List.mem_map.1 inside
        split_ifs at same ⊢ with address
        · rw [own old before address] at same
          exact absurd ((congrArg UInt16.toNat place).symm.trans same).symm here
        · exact ⟨old, before, rfl, same⟩
  · have dark : (first.blink.follow second.blink).shown = second.blink.offChar := if_pos off
    have drawn := @picture_update background cast (first.blink.follow second.blink) target.toNat
      (congrArg UInt16.toNat place)
    rw [dark] at drawn
    rw [video, stages.video, syncChar_eq]
    exact drawn

/-- A structure leaves the cast, and what it showed last becomes background. -/
theorem remove (stages : Stages background cast engine items) (results : List Int)
    {arg : BitVec 32} {location : UInt16} {blink : Blink}
    (low : (⟨arg.setWidth 16⟩ : UInt16) = location) (found : cast location.toNat = some blink) :
    ∃ after others, serve ⟨engine, results⟩ (.remove arg) = .ok ⟨after, 0 :: results⟩ ∧
      Stages (Function.update background (2 * location.toNat) blink.shown)
        (Function.update cast location.toNat none) after others := by
  obtain ⟨item, hit, rfl⟩ := stages.first found
  have place : item.blink.location = location := by simpa using (Board.first_some hit).2
  obtain ⟨front, rest, rfl, -⟩ := Board.first_split hit
  obtain ⟨after, removed, holds, cleared, others, video⟩ :=
    stages.proper.holds.remove (low ▸ hit)
  have kept : ∀ other ∈ front ++ rest, other ∈ front ++ item :: rest := fun other member =>
    List.mem_append.2 ((List.mem_append.1 member).imp_right (List.mem_cons_of_mem item))
  have distinct := stages.distinct
  rw [List.map_append, List.map_cons, List.nodup_middle, List.nodup_cons,
    ← List.map_append] at distinct
  refine ⟨after, _, step_ioctl (.remove arg) removed results,
    stages.proper.removed holds cleared others, distinct.2, ?_, ?_, ?_, ?_⟩
  · exact fun other member => stages.within other (kept other member)
  · exact fun other member => stages.paced other (kept other member)
  · intro position blink
    rw [Function.update_apply]
    split_ifs with here
    · refine iff_of_false nofun ?_
      rintro ⟨other, member, rfl, same⟩
      have equal : other.blink.location = item.blink.location :=
        (UInt16.toNat.inj (same.trans here)).trans place.symm
      exact distinct.1 (equal ▸ List.mem_map_of_mem (f := fun item : Listed =>
        item.blink.location) member)
    · rw [stages.lists]
      constructor
      · rintro ⟨other, member, rfl, same⟩
        refine ⟨other, ?_, rfl, same⟩
        rcases List.mem_append.1 member with early | late
        · exact List.mem_append_left _ early
        · rcases List.mem_cons.1 late with rfl | later
          · exact absurd (same.symm.trans (congrArg UInt16.toNat place)) here
          · exact List.mem_append_right _ later
      · rintro ⟨other, member, rfl, same⟩
        exact ⟨other, kept other member, rfl, same⟩
  · rw [video, stages.video]
    exact picture_leaves background found

end Stages

/-- Nothing blinks at first. -/
theorem start_stages (video : Nat → UInt8) :
    Stages video (fun _ => none) (start (fun _ => zeroed) video).engine [] where
  proper := start_proper video
  distinct := List.nodup_nil
  within := nofun
  paced := nofun
  lists := by simp
  video := by
    funext offset
    rw [picture]
    split_ifs <;> rfl

end ComputerSystems.Fish
