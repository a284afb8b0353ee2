import ComputerSystems.Proof.Mp1.Refinement

namespace ComputerSystems.Mp1

/-- What a completed add has done with the memory that it got. -/
theorem mp1IoctlAdd_cases {helpers : Helpers} {driver after : Driver} {result : Int}
    (added : mp1IoctlAdd helpers driver = .ok (result, after)) :
    (helpers.allocated = none ∧ result = -1 ∧ after = driver) ∨
      ∃ address, helpers.allocated = some address ∧ address ≠ 0 ∧ address ∉ driver.live ∧
        (∀ other ≠ address, after.node other = driver.node other) ∧
        ((result = -1 ∧ after.live = driver.live ∧
            (after.listHead = driver.listHead ∨ after.listHead = address)) ∨
          (result = 0 ∧ helpers.copied.location.toNat ≤ 1999 ∧
            after.live = address :: driver.live ∧ after.listHead = address ∧
            after.node address = ⟨helpers.copied.toBlink.lit, driver.listHead⟩)) := by
  cases allocated : helpers.allocated with
  | none =>
      rw [mp1IoctlAdd, allocated] at added
      cases added
      exact .inl ⟨rfl, rfl, rfl⟩
  | some address =>
      refine .inr ⟨address, rfl, ?_⟩
      rw [mp1IoctlAdd, allocated, Driver.mp1Malloc] at added
      by_cases broken : address = 0 ∨ address ∈ driver.live
      · rw [if_pos broken] at added
        cases added
      · rw [if_neg broken] at added
        rw [not_or] at broken
        obtain ⟨previous, rfl⟩ := Nat.exists_eq_succ_of_ne_zero broken.1
        refine ⟨broken.1, broken.2, ?_⟩
        simp only at added
        rw [Driver.write_live List.mem_cons_self] at added
        simp only at added
        by_cases failed : helpers.uncopied ≠ 0
        · rw [if_pos failed, Driver.mp1Free_live List.mem_cons_self] at added
          cases added
          refine ⟨fun other different => ?_, .inl ⟨rfl, ?_, .inl rfl⟩⟩
          · exact Function.update_of_ne different ..
          · exact List.erase_cons_head ..
        · rw [if_neg failed, Driver.write_live List.mem_cons_self] at added
          simp only at added
          by_cases hidden : 1999 < helpers.copied.location.toNat
          · rw [if_pos hidden, Driver.mp1Free_live List.mem_cons_self] at added
            cases added
            refine ⟨fun other different => ?_, .inl ⟨rfl, ?_, .inr rfl⟩⟩
            · simp [different]
            · exact List.erase_cons_head ..
          · rw [if_neg hidden] at added
            cases added
            refine ⟨fun other different => ?_, .inr ⟨rfl, not_lt.1 hidden, rfl, rfl, ?_⟩⟩
            · simp [different]
            · simp [Blink.lit]

theorem remTrav_link {driver : Driver} {target previous fuel start : Nat}
    (travelled : remTrav driver target fuel start = .ok previous) :
    driver.link previous = target := by
  induction fuel generalizing start with
  | zero => cases travelled
  | succ fuel ih =>
      rw [remTrav] at travelled
      by_cases live : start ∈ driver.live
      · rw [Driver.read_live live] at travelled
        simp only at travelled
        split_ifs at travelled with found
        · cases travelled
          exact found
        · exact ih travelled
      · rw [Driver.read, if_neg live] at travelled
        cases travelled

/-- What a completed remove has done with the list. -/
theorem mp1IoctlRemove_cases {arg : BitVec 32} {driver after : Driver} {result : Int}
    (removed : mp1IoctlRemove arg driver = .ok (result, after)) :
    (mp1Search driver ⟨arg.setWidth 16⟩ = .ok 0 ∧ result = -1 ∧ after = driver) ∨
      ∃ target, mp1Search driver ⟨arg.setWidth 16⟩ = .ok target ∧ target ≠ 0 ∧
        target ∈ driver.live ∧ result = 0 ∧ after.live = driver.live.erase target ∧
        (∀ node, (after.node node).toBlink = (driver.node node).toBlink) ∧
        ((driver.listHead = target ∧ after.listHead = driver.link target ∧
            after.link = driver.link) ∨
          ∃ previous, driver.link previous = target ∧ after.listHead = driver.listHead ∧
            after.link = Function.update driver.link previous (driver.link target)) := by
  rw [mp1IoctlRemove] at removed
  cases searched : mp1Search driver ⟨arg.setWidth 16⟩ with
  | error fault =>
      rw [searched] at removed
      cases removed
  | ok target =>
      rw [searched] at removed
      cases target with
      | zero =>
          cases removed
          exact .inl ⟨rfl, rfl, rfl⟩
      | succ target =>
          simp only at removed
          by_cases live : target + 1 ∈ driver.live
          · rw [Driver.read_live live] at removed
            simp only at removed
            refine .inr ⟨target + 1, rfl, Nat.succ_ne_zero target, live, ?_⟩
            by_cases head : driver.listHead = target + 1
            · rw [if_pos head, Driver.mp1Free, if_pos live] at removed
              cases removed
              exact ⟨rfl, rfl, fun _ => rfl, .inl ⟨head, rfl, rfl⟩⟩
            · rw [if_neg head] at removed
              cases travelled : remTrav driver (target + 1) driver.fuel driver.listHead with
              | error fault =>
                  rw [travelled] at removed
                  cases removed
              | ok previous =>
                  rw [travelled] at removed
                  simp only [Driver.write] at removed
                  by_cases inner : previous ∈ driver.live
                  · rw [if_pos inner] at removed
                    simp only [Driver.mp1Free, if_pos live] at removed
                    cases removed
                    have before := remTrav_link travelled
                    refine ⟨rfl, rfl, fun node => ?_, .inr ⟨previous, before, rfl, ?_⟩⟩
                    · have fields := Function.comp_update BlinkStruct.toBlink driver.node previous
                        { driver.node previous with next := driver.link (target + 1) }
                      exact congrFun (fields.trans (Function.update_eq_self ..)) node
                    · exact Function.comp_update BlinkStruct.next driver.node previous
                        { driver.node previous with next := driver.link (target + 1) }
                  · rw [if_neg inner] at removed
                    cases removed
          · rw [Driver.read, if_neg live] at removed
            cases removed

theorem mp1IoctlFind_cases {helpers : Helpers} {arg : BitVec 32} {driver after : Driver}
    {result : Int} (found : mp1IoctlFind helpers arg driver = .ok (result, after)) :
    after = driver := by
  rw [mp1IoctlFind] at found
  by_cases null : arg = 0
  · rw [if_pos null] at found
    cases found
    rfl
  · rw [if_neg null] at found
    cases searched : mp1Search driver helpers.userLocation with
    | error fault =>
        rw [searched] at found
        cases found
    | ok address =>
        rw [searched] at found
        cases address with
        | zero =>
            cases found
            rfl
        | succ address =>
            simp only at found
            cases read : driver.read (address + 1) with
            | error fault =>
                rw [read] at found
                cases found
            | ok node =>
                rw [read] at found
                cases found
                rfl

/-- What a completed sync has done with the list. -/
theorem mp1IoctlSync_cases {arg : BitVec 32} {driver after : Driver} {result : Int}
    (synced : mp1IoctlSync arg driver = .ok (result, after)) :
    (result = -1 ∧ after = driver ∧ (mp1Search driver ⟨(arg >>> 16).setWidth 16⟩ = .ok 0 ∨
        mp1Search driver ⟨arg.setWidth 16⟩ = .ok 0)) ∨
      ∃ first second, mp1Search driver ⟨(arg >>> 16).setWidth 16⟩ = .ok first ∧
        mp1Search driver ⟨arg.setWidth 16⟩ = .ok second ∧ first ≠ 0 ∧ second ≠ 0 ∧ result = 0 ∧
        after.listHead = driver.listHead ∧ after.live = driver.live ∧
        after.node = Function.update driver.node second { driver.node second with
          toBlink := (driver.node first).toBlink.follow (driver.node second).toBlink } := by
  rw [mp1IoctlSync] at synced
  cases searched : mp1Search driver ⟨(arg >>> 16).setWidth 16⟩ with
  | error fault =>
      rw [searched] at synced
      cases synced
  | ok first =>
      rw [searched] at synced
      cases again : mp1Search driver ⟨arg.setWidth 16⟩ with
      | error fault =>
          rw [again] at synced
          cases synced
      | ok second =>
          rw [again] at synced
          simp only at synced
          split_ifs at synced with missing absent
          · cases synced
            exact .inl ⟨rfl, rfl, .inl (congrArg _ missing)⟩
          · cases synced
            exact .inl ⟨rfl, rfl, .inr (congrArg _ absent)⟩
          · by_cases leads : first ∈ driver.live
            · rw [Driver.read_live leads] at synced
              simp only at synced
              by_cases follows : second ∈ driver.live
              · rw [Driver.write_live follows] at synced
                simp only at synced
                rw [Driver.read, if_pos follows] at synced
                cases synced
                exact .inr ⟨first, second, rfl, rfl, missing, absent, rfl, rfl, rfl, rfl⟩
              · rw [Driver.write, if_neg follows] at synced
                cases synced
            · rw [Driver.read, if_neg leads] at synced
              cases synced

/-- A change of the fields of a node leaves the links alone. -/
theorem Driver.link_follow {driver after : Driver} {address : Nat} {blink : Blink}
    (node : after.node = Function.update driver.node address
      { driver.node address with toBlink := blink }) : after.link = driver.link := by
  have links := Function.comp_update BlinkStruct.next driver.node address
    { driver.node address with toBlink := blink }
  rw [← node] at links
  exact links.trans (Function.update_eq_self ..)

/-- The dispatcher takes the last command when it takes no other. -/
theorem syncs_of_rest {cmd : BitVec 32} (valid : ¬ 3 < cmd.toNat) (adds : cmd ≠ 0)
    (removes : cmd ≠ 1) (finds : cmd ≠ 2) : cmd = 3 := by
  refine BitVec.eq_of_toNat_eq ?_
  have others : cmd.toNat ≠ 0 ∧ cmd.toNat ≠ 1 ∧ cmd.toNat ≠ 2 :=
    ⟨fun same => adds (BitVec.eq_of_toNat_eq same),
      fun same => removes (BitVec.eq_of_toNat_eq same),
      fun same => finds (BitVec.eq_of_toNat_eq same)⟩
  show cmd.toNat = 3
  omega

end ComputerSystems.Mp1
