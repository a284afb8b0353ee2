import ComputerSystems.Proof.Fish.Refinement
import ComputerSystems.Proof.Mp1.Synchrony

namespace ComputerSystems.Fish

open Library Mp1

section Blinks
variable {blink : Blink}

/-- What the engines keep of each structure: the status is on or off, and no period is empty. -/
structure Running (blink : Blink) : Prop where
  toggles : blink.Toggles
  countdown : blink.countdown ≠ 0
  onLength : blink.onLength ≠ 0
  offLength : blink.offLength ≠ 0

theorem counted_toNat (runs : blink.countdown ≠ 0) :
    (blink.countdown - 1).toNat = blink.countdown.toNat - 1 := by
  have positive : 0 < blink.countdown.toNat :=
    Nat.pos_of_ne_zero fun null => runs (UInt16.toNat.inj null)
  have one : (1 : UInt16) ≤ blink.countdown := UInt16.le_iff_toNat_le.2 positive
  exact UInt16.toNat_sub_of_le _ _ one

/-- The signed test agrees with the test for zero as long as the sign bit is not reached. -/
theorem expires_iff (runs : blink.countdown ≠ 0) :
    expires blink = true ↔ blink.expires = true ∨ 2 ^ 15 < blink.countdown.toNat := by
  have counted : (blink.countdown - 1).toBitVec.toNat = blink.countdown.toNat - 1 :=
    counted_toNat runs
  have positive : 0 < blink.countdown.toNat :=
    Nat.pos_of_ne_zero fun null => runs (UInt16.toNat.inj null)
  rw [expires, decide_eq_true_iff, Blink.expires_iff, BitVec.toInt_eq_toNat_cond, counted]
  split_ifs
  · omega
  · omega

/-- Both ways to toggle agree on a status that is on or off. -/
theorem toggled_eq (toggles : blink.Toggles) :
    toggled blink = if blink.status = 0 then blink.lit else blink.dark := by
  rw [toggled, Blink.lit, Blink.dark]
  rcases toggles with off | on
  · rw [off]
    rfl
  · rw [on]
    rfl

theorem toggledChar_eq (toggles : blink.Toggles) :
    toggledChar blink = if blink.status = 0 then blink.onChar else blink.offChar := by
  rw [toggledChar]
  rcases toggles with off | on
  · rw [off]
    rfl
  · rw [on]
    rfl

/-- The engines tick a structure alike exactly when its countdown is not too long. -/
theorem ticked_eq_iff (running : Running blink) :
    ticked blink = blink.ticked ↔ blink.countdown.toNat ≤ 2 ^ 15 := by
  rw [ticked, Blink.ticked, toggled_eq running.toggles]
  by_cases short : blink.countdown.toNat ≤ 2 ^ 15
  · refine iff_of_true ?_ short
    by_cases ends : blink.expires = true
    · rw [if_pos ((expires_iff running.countdown).2 (.inl ends)), if_pos ends]
    · rw [if_neg ends, if_neg]
      rw [expires_iff running.countdown]
      exact not_or.2 ⟨ends, not_lt.2 short⟩
  · refine iff_of_false (fun same => ?_) short
    have long := not_le.1 short
    have lasts : ¬ blink.expires = true := by
      rw [Blink.expires_iff]
      omega
    rw [if_pos ((expires_iff running.countdown).2 (.inr long)), if_neg lasts] at same
    have status := congrArg Blink.status same
    rw [apply_ite Blink.status] at status
    rcases running.toggles with off | on
    · rw [if_pos off] at status
      exact absurd (status.trans off) (show (1 : UInt16) ≠ 0 by decide)
    · rw [if_neg (on ▸ (show (1 : UInt16) ≠ 0 by decide))] at status
      exact absurd (status.trans on) (show (0 : UInt16) ≠ 1 by decide)

theorem tickVideo_eq (running : Running blink) (short : blink.countdown.toNat ≤ 2 ^ 15)
    (screen : Screen) : tickVideo blink screen.video = (screen.tickOne blink).video := by
  have alike : expires blink = true ↔ blink.expires = true := by
    rw [expires_iff running.countdown]
    exact or_iff_left (not_lt.2 short)
  rw [tickVideo, Screen.tickOne]
  by_cases ends : blink.expires = true
  · rw [if_pos (alike.2 ends), if_pos ends, Screen.draw, Blink.ticked_cell,
      toggledChar_eq running.toggles, Blink.ticked, if_pos ends, apply_ite Blink.shown,
      Blink.lit_shown, Blink.dark_shown]
  · rw [if_neg (mt alike.1 ends), if_neg ends]

theorem Running.ticked (running : Running blink) : Running blink.ticked := by
  have toggles := Blink.ticked_toggles running.toggles
  rw [Blink.ticked] at toggles ⊢
  split_ifs at toggles ⊢ with ends off
  · exact ⟨toggles, running.onLength, running.onLength, running.offLength⟩
  · exact ⟨toggles, running.offLength, running.onLength, running.offLength⟩
  · exact ⟨toggles, fun zero => ends (decide_eq_true zero), running.onLength, running.offLength⟩

theorem Running.follow {leader : Blink} (leads : Running leader) (follower : Blink) :
    Running (leader.follow follower) :=
  ⟨leads.toggles, leads.countdown, leads.onLength, leads.offLength⟩

/-- The flags of the test never select the first character. -/
theorem syncChar_eq (blink : Blink) : syncChar blink = blink.offChar := by
  rw [syncChar, if_neg]
  simp

theorem syncChar_eq_shown_iff (leader follower : Blink) :
    syncChar (leader.follow follower) = (leader.follow follower).shown ↔
      leader.status = 0 ∨ follower.onChar = follower.offChar := by
  have off : (leader.follow follower).offChar = follower.offChar := rfl
  rw [syncChar_eq, Blink.shown, off]
  by_cases dark : leader.status = 0
  · have also : (leader.follow follower).status = 0 := dark
    rw [if_pos also]
    exact iff_of_true rfl (.inl dark)
  · have also : ¬ (leader.follow follower).status = 0 := dark
    rw [if_neg also, or_iff_right dark]
    exact eq_comm

end Blinks

/-- The listed structures without their memory. -/
def blinks (items : List Listed) : List Blink := items.map Listed.blink

/-- The first structure with the location changes. -/
def changeFirst (location : UInt16) (change : Blink → Blink) : List Blink → List Blink
  | [] => []
  | blink :: rest =>
      if blink.location = location then change blink :: rest
      else blink :: changeFirst location change rest

theorem first_blink (items : List Listed) (location : UInt16) :
    (Board.first items location).map Listed.blink =
      (blinks items).find? fun blink => blink.location = location := by
  rw [blinks, List.find?_map]
  rfl

theorem blinks_eraseP (items : List Listed) (location : UInt16) :
    blinks (items.eraseP fun item => item.blink.location = location) =
      (blinks items).eraseP fun blink => blink.location = location := by
  rw [blinks, blinks, List.eraseP_map]
  rfl

/-- A structure that is not listed is not changed. -/
theorem retime_of_notMem {items : List Listed} {address : Nat} (absent : address ∉ addresses items)
    (change : Blink → Blink) : Board.retime items address change = items := by
  have still : ∀ item ∈ items, (if item.address = address then
      { item with blink := change item.blink } else item) = id item := by
    intro item member
    have apart : item.address ≠ address := fun same =>
      absent (same ▸ List.mem_map_of_mem member)
    rw [if_neg apart, id]
  rw [Board.retime, List.map_congr_left still, List.map_id]

theorem blinks_retime {items : List Listed} (unique : (addresses items).Nodup) {location : UInt16}
    {found : Listed} (hit : Board.first items location = some found) (change : Blink → Blink) :
    blinks (Board.retime items found.address change) =
      changeFirst location change (blinks items) := by
  induction items with
  | nil => cases hit
  | cons head rest ih =>
      rw [addresses, List.map_cons, List.nodup_cons] at unique
      by_cases here : head.blink.location = location
      · rw [Board.first, List.find?_cons_of_pos (by simpa using here), Option.some_inj] at hit
        subst hit
        have still : Board.retime rest head.address change = rest :=
          retime_of_notMem unique.1 change
        rw [Board.retime] at still
        simp [blinks, Board.retime, changeFirst, here, still]
      · rw [Board.first, List.find?_cons_of_neg (by simpa using here)] at hit
        have other : head.address ≠ found.address := fun same =>
          unique.1 (same ▸ List.mem_map_of_mem (List.mem_of_find?_eq_some hit))
        have later := ih unique.2 hit
        rw [blinks, Board.retime] at later
        simp only [blinks, Board.retime, List.map_cons, changeFirst, if_neg here, if_neg other]
        rw [later, blinks]

section
variable {items others : List Listed}

theorem first_none_iff (same : blinks items = blinks others) (location : UInt16) :
    Board.first items location = none ↔ Board.first others location = none := by
  rw [← Option.map_eq_none_iff (f := Listed.blink), first_blink, same, ← first_blink,
    Option.map_eq_none_iff]

theorem first_some_of_blinks (same : blinks items = blinks others) {location : UInt16}
    {item : Listed} (hit : Board.first items location = some item) :
    ∃ other, Board.first others location = some other ∧ other.blink = item.blink := by
  have found := first_blink items location
  rw [hit, same, ← first_blink] at found
  exact Option.map_eq_some_iff.1 found.symm

end

theorem tick_video_eq {items : List Listed} (running : ∀ item ∈ items, Running item.blink)
    (short : ∀ item ∈ items, item.blink.countdown.toNat ≤ 2 ^ 15) (screen : Screen) :
    (screen.tick items).video =
      (blinks items).foldl (fun video blink => tickVideo blink video) screen.video := by
  induction items generalizing screen with
  | nil => rfl
  | cons item rest ih =>
      have later := ih (fun other member => running other (List.mem_cons_of_mem item member))
        (fun other member => short other (List.mem_cons_of_mem item member))
        (screen.tickOne item.blink)
      rw [Screen.tick_cons, later, blinks, blinks, List.map_cons, List.foldl_cons,
        tickVideo_eq (running item List.mem_cons_self) (short item List.mem_cons_self)]

end ComputerSystems.Fish
