import ComputerSystems.Proof.Kernel.CommandLine

namespace ComputerSystems.Kernel
open ComputerSystems.Library

/-- The addresses of the page that the loaded directory gives to the caller. -/
def InUserPage (address : Nat) : Prop := mb128 ≤ address ∧ address < mb128 + mb4

instance (address : Nat) : Decidable (InUserPage address) :=
  inferInstanceAs (Decidable (_ ∧ _))

namespace Machine

/-- The bytes of the page of the caller. -/
def programPage (machine : Machine) : Nat → UInt8 := machine.frames machine.programFrame

def storePage (machine : Machine) (page : Nat → UInt8) : Machine :=
  { machine with frames := Function.update machine.frames machine.programFrame page }

@[simp]
theorem programPage_storePage (machine : Machine) (page : Nat → UInt8) :
    (machine.storePage page).programPage = page :=
  Function.update_self ..

@[simp]
theorem storePage_storePage (machine : Machine) (first second : Nat → UInt8) :
    (machine.storePage first).storePage second = machine.storePage second := by
  simp only [storePage, programFrame, Function.update_idem]

theorem storePage_programPage (machine : Machine) :
    machine.storePage machine.programPage = machine := by
  unfold storePage programPage
  rw [Function.update_eq_self]

end Machine

/-- One store through a user pointer. No page is present behind the page of the caller. -/
def storeUser (machine : Machine) (store : Nat × UInt8) : Except Stop Machine :=
  if InUserPage store.1 then
    .ok (machine.storePage
      (Function.update machine.programPage (store.1 - mb128) store.2))
  else .error .pageFault

/-- The checks of `getargs` in their order. -/
def GetargsRefuses (buf : Nat) (nbytes : Int) (machine : Machine) : Prop :=
  (buf = 0 ∨ buf > mb128 + mb4 ∨ buf < mb128) ∨ machine.currentPcb.numCharInArg = 1 ∨
    nbytes < machine.currentPcb.numCharInArg

instance (buf : Nat) (nbytes : Int) (machine : Machine) :
    Decidable (GetargsRefuses buf nbytes machine) :=
  inferInstanceAs (Decidable (_ ∨ _))

/-- The stores of the copy loop, up to its end or to the first one that faults. -/
def argumentStores (buf count : Nat) (arg : Nat → UInt8) : List (Nat × UInt8) :=
  (List.range count).map fun place => (buf + place, arg place)

def getargsStores (buf : Nat) (nbytes : Int) (machine : Machine) : List (Nat × UInt8) :=
  if GetargsRefuses buf nbytes machine then []
  else argumentStores buf machine.currentPcb.numCharInArg machine.currentPcb.arg

def VidmapRefuses (screenStart : Nat) : Prop :=
  screenStart = 0 ∨ screenStart > mb128 + mb4 - 4 ∨ screenStart < mb128

instance (screenStart : Nat) : Decidable (VidmapRefuses screenStart) :=
  inferInstanceAs (Decidable (_ ∨ _))

/-- The pointer to 256MB goes to the caller with its low byte first. -/
def vidmapStores (screenStart : Nat) : List (Nat × UInt8) :=
  if VidmapRefuses screenStart then []
  else [(screenStart, 0), (screenStart + 1, 0), (screenStart + 2, 0), (screenStart + 3, 0x10)]

section
variable {buf count : Nat} {arg : Nat → UInt8} {machine : Machine}

theorem argumentStores_succ : argumentStores buf (count + 1) arg =
    argumentStores buf count arg ++ [(buf + count, arg count)] := by
  rw [argumentStores, List.range_succ, List.map_append]
  rfl

/-- Stores inside the page are those of the copy loop. -/
theorem run_argumentStores (low : mb128 ≤ buf) (high : buf + count ≤ mb128 + mb4) :
    run storeUser machine (argumentStores buf count arg) = .ok (machine.storePage
      (forLoop (fun position page => Function.update page (buf - mb128 + position) (arg position))
        0 count machine.programPage)) := by
  induction count with
  | zero =>
      rw [forLoop, Machine.storePage_programPage]
      rfl
  | succ count inductionHypothesis =>
      have before := inductionHypothesis (by omega)
      have place : InUserPage (buf + count) := ⟨by omega, by omega⟩
      rw [argumentStores_succ, run_append, before]
      dsimp only
      rw [run, storeUser, if_pos place]
      dsimp only [run]
      rw [Machine.programPage_storePage, Machine.storePage_storePage, forLoop, Nat.zero_add,
        show buf + count - mb128 = buf - mb128 + count by omega]

/-- Stores that reach the end of the page fault there. -/
theorem run_argumentStores_beyond (low : mb128 ≤ buf) (start : buf ≤ mb128 + mb4)
    (beyond : mb128 + mb4 < buf + count) :
    run storeUser machine (argumentStores buf count arg) = .error .pageFault := by
  induction count with
  | zero => omega
  | succ count inductionHypothesis =>
      rw [argumentStores_succ, run_append]
      by_cases earlier : mb128 + mb4 < buf + count
      · rw [inductionHypothesis earlier]
      · have outside : ¬ InUserPage (buf + count) := fun inside => by
          have last := inside.2
          omega
        rw [run_argumentStores low (by omega)]
        dsimp only
        rw [run, storeUser, if_neg outside]

end

/-- An accepted call makes its stores one by one. -/
theorem getargs_eq (buf : Nat) (nbytes : Int) (machine : Machine) :
    getargs buf nbytes machine =
      if GetargsRefuses buf nbytes machine then .ok ⟨machine, .returned (-1)⟩
      else
        match run storeUser machine (getargsStores buf nbytes machine) with
        | .ok after => .ok ⟨after, .returned 0⟩
        | .error stop => .error stop := by
  by_cases refused : GetargsRefuses buf nbytes machine
  · rw [if_pos refused, getargs]
    dsimp only
    rcases refused with pointer | single | small
    · rw [if_pos pointer]
    · rw [if_pos single]
      split_ifs <;> rfl
    · rw [if_pos small]
      split_ifs <;> rfl
  · rw [if_neg refused, getargsStores, if_neg refused]
    unfold GetargsRefuses at refused
    push Not at refused
    obtain ⟨⟨present, high, low⟩, several, room⟩ := refused
    rw [getargs, if_neg (by omega)]
    dsimp only
    rw [if_neg several, if_neg (by omega)]
    by_cases beyond : mb128 + mb4 < buf + machine.currentPcb.numCharInArg
    · rw [if_pos beyond, run_argumentStores_beyond low high beyond]
    · rw [if_neg beyond, run_argumentStores low (by omega)]
      rfl

/-- An accepted pointer has room for four bytes in the page. -/
theorem vidmap_inside {screenStart place : Nat} (accepted : ¬ VidmapRefuses screenStart)
    (within : place < 4) : InUserPage (screenStart + place) := by
  unfold VidmapRefuses at accepted
  push Not at accepted
  obtain ⟨_, high, low⟩ := accepted
  unfold InUserPage
  simp only [mb128, mb4] at high low ⊢
  omega

/-- The stores of an accepted call of `vidmap` give the page that it leaves. -/
theorem run_vidmapStores {screenStart : Nat} (machine : Machine)
    (accepted : ¬ VidmapRefuses screenStart) :
    run storeUser machine (vidmapStores screenStart) = .ok (machine.storePage fun address =>
      if address = screenStart - mb128 + 3 then 0x10
      else if screenStart - mb128 ≤ address ∧ address < screenStart - mb128 + 3 then 0
      else machine.programPage address) := by
  have stores : vidmapStores screenStart = _ := if_neg accepted
  have low : mb128 ≤ screenStart := (vidmap_inside accepted (show 0 < 4 by decide)).1
  have stored (current : Machine) (place : Nat) (within : place < 4) (value : UInt8) :
      storeUser current (screenStart + place, value) = .ok (current.storePage
        (Function.update current.programPage (screenStart + place - mb128) value)) :=
    if_pos (vidmap_inside accepted within)
  rw [stores]
  change run storeUser machine ((screenStart + 0, 0) :: _) = _
  rw [run_cons _ _ _ _ _ (stored _ 0 (by decide) _), run_cons _ _ _ _ _ (stored _ 1 (by decide) _),
    run_cons _ _ _ _ _ (stored _ 2 (by decide) _), run_cons _ _ _ _ _ (stored _ 3 (by decide) _),
    run]
  simp only [Machine.programPage_storePage, Machine.storePage_storePage]
  apply congrArg (Except.ok ∘ machine.storePage)
  funext address
  obtain ⟨offset, rfl⟩ := Nat.exists_eq_add_of_le low
  simp only [Function.update_apply, Nat.add_sub_cancel_left, Nat.add_assoc]
  grind

/-- The page that a call of `vidmap` leaves has its stores and nothing else. -/
theorem vidmap_frames (screenStart : Nat) (machine : Machine) :
    ∃ stored, run storeUser machine (vidmapStores screenStart) = .ok stored ∧
      (vidmap screenStart machine).machine.frames = stored.frames := by
  by_cases refused : VidmapRefuses screenStart
  · have stores : vidmapStores screenStart = [] := if_pos refused
    have result : vidmap screenStart machine = ⟨machine.cli, .returned (-1)⟩ := if_pos refused
    rw [stores, result]
    exact ⟨machine, rfl, rfl⟩
  · have result : vidmap screenStart machine = _ := if_neg refused
    rw [run_vidmapStores machine refused, result]
    exact ⟨_, rfl, rfl⟩

/-- The stores of `getargs` are in the page, and a pointer without room for them is refused. -/
structure GetargsConfined (buf : Nat) (nbytes : Int) (machine : Machine) : Prop where
  inside : ∀ store ∈ getargsStores buf nbytes machine, InUserPage store.1
  refused : (∃ place < machine.currentPcb.numCharInArg, ¬ InUserPage (buf + place)) →
    getargs buf nbytes machine = .ok ⟨machine, .returned (-1)⟩

/-- A refused `vidmap` leaves interrupts off and the memory alone. -/
structure VidmapConfined (screenStart : Nat) (machine : Machine) : Prop where
  inside : ∀ store ∈ vidmapStores screenStart, InUserPage store.1
  refused : (∃ place < 4, ¬ InUserPage (screenStart + place)) →
    vidmap screenStart machine = ⟨machine.cli, .returned (-1)⟩

/-- The checks pass, but the argument reaches beyond the page. -/
def ArgumentOverruns (buf : Nat) (nbytes : Int) (machine : Machine) : Prop :=
  ¬ GetargsRefuses buf nbytes machine ∧ mb128 + mb4 < buf + machine.currentPcb.numCharInArg

theorem vidmap_confined (screenStart : Nat) (machine : Machine) :
    VidmapConfined screenStart machine := by
  by_cases refused : VidmapRefuses screenStart
  · constructor
    case inside =>
      have stores : vidmapStores screenStart = [] := if_pos refused
      rw [stores]
      exact fun store none => absurd none (List.not_mem_nil)
    case refused => exact fun _ => if_pos refused
  · have stores : vidmapStores screenStart = _ := if_neg refused
    constructor
    case inside =>
      rw [stores]
      intro store member
      simp only [List.mem_cons, List.not_mem_nil, or_false] at member
      have place (offset : Nat) := @vidmap_inside screenStart offset refused
      rcases member with rfl | rfl | rfl | rfl
      · exact place 0 (by decide)
      · exact place 1 (by decide)
      · exact place 2 (by decide)
      · exact place 3 (by decide)
    case refused =>
      rintro ⟨place, within, outside⟩
      exact absurd (vidmap_inside refused within) outside

/-- The calls stay inside the page of the caller unless the argument reaches beyond it. -/
theorem outputPointers_confined_iff (buf screenStart : Nat) (nbytes : Int) (machine : Machine) :
    GetargsConfined buf nbytes machine ∧ VidmapConfined screenStart machine ↔
      ¬ ArgumentOverruns buf nbytes machine := by
  constructor
  · rintro ⟨confined, _⟩ ⟨accepted, beyond⟩
    have stores : getargsStores buf nbytes machine = _ := if_neg accepted
    have positive : 0 < machine.currentPcb.numCharInArg := by
      by_contra none
      unfold GetargsRefuses at accepted
      push Not at accepted
      omega
    have last := confined.inside (buf + (machine.currentPcb.numCharInArg - 1), _) <| by
      rw [stores]
      exact List.mem_map.2 ⟨machine.currentPcb.numCharInArg - 1, by simp; omega, rfl⟩
    have high := last.2
    dsimp only at high
    omega
  · intro fits
    refine ⟨?_, vidmap_confined screenStart machine⟩
    by_cases refused : GetargsRefuses buf nbytes machine
    · constructor
      case inside =>
        have stores : getargsStores buf nbytes machine = [] := if_pos refused
        rw [stores]
        exact fun store none => absurd none (List.not_mem_nil)
      case refused =>
        intro _
        rw [getargs_eq, if_pos refused]
    · have room : buf + machine.currentPcb.numCharInArg ≤ mb128 + mb4 := by
        by_contra beyond
        exact fits ⟨refused, by omega⟩
      have stores : getargsStores buf nbytes machine = _ := if_neg refused
      unfold GetargsRefuses at refused
      push Not at refused
      have inside (place : Nat) (within : place < machine.currentPcb.numCharInArg) :
          InUserPage (buf + place) := ⟨by omega, by omega⟩
      constructor
      case inside =>
        rw [stores]
        intro store member
        obtain ⟨place, within, rfl⟩ := List.mem_map.1 member
        exact inside place (List.mem_range.1 within)
      case refused =>
        rintro ⟨place, within, outside⟩
        exact absurd (inside place within) outside

/-- A machine whose process has an argument of one byte and its terminator. -/
def argumentMachine : Machine :=
  { coldMachine with pcb := fun _ => { zeroPcb with numCharInArg := 2 } }

/-- The end of the page passes the check, and the store there faults. -/
theorem getargs_overruns :
    getargs (mb128 + mb4) 2 argumentMachine = .error .pageFault ∧
      ¬ GetargsConfined (mb128 + mb4) 2 argumentMachine := by
  have faults : getargs (mb128 + mb4) 2 argumentMachine = .error .pageFault := rfl
  refine ⟨faults, fun confined => ?_⟩
  have returned := confined.refused ⟨0, by decide, by decide⟩
  rw [faults] at returned
  cases returned

end ComputerSystems.Kernel
