import ComputerSystems.Construction.Tux.Buttons
import ComputerSystems.Library.Bits
import ComputerSystems.Proof.Tux.Commands

namespace ComputerSystems.Tux

open Library Library.Ia32

/-- The button packet that an event brings. -/
def biocEvent : DriverEvent → Option Packet
  | .packet packet _ => if packet.opcode = mtcpBiocEvent then some packet else none
  | _ => none

/-- The most recent button packet of a history. -/
def lastBioc (events : List DriverEvent) : Option Packet := (events.filterMap biocEvent).getLast?

/-- The buttons that a packet reports, in the order of the result for the user. The bits of the
packet are active low, and all buttons are released before the first one. -/
def pressed (packet : Option Packet) (bit : Nat) : Bool :=
  match packet with
  | none => false
  | some packet =>
      match bit with
      | 7 => !packet.second.toBitVec.getLsbD 3
      | 6 => !packet.second.toBitVec.getLsbD 1
      | 5 => !packet.second.toBitVec.getLsbD 2
      | 4 => !packet.second.toBitVec.getLsbD 0
      | 3 => !packet.first.toBitVec.getLsbD 3
      | 2 => !packet.first.toBitVec.getLsbD 2
      | 1 => !packet.first.toBitVec.getLsbD 1
      | 0 => !packet.first.toBitVec.getLsbD 0
      | _ => false

/-- A word is the mask of the buttons of a packet. -/
def Reports (word : BitVec 32) (packet : Option Packet) : Prop :=
  ∀ bit < 32, word.getLsbD bit = pressed packet bit

/-- The static variables hold the inverted bytes of the most recent button packet. -/
def Holds (driver : Driver) : Option Packet → Prop
  | none => driver.bStatic = 0 ∧ driver.cStatic = 0
  | some packet => driver.bStatic = ~~~packet.first.toBitVec.setWidth 32 ∧
      driver.cStatic = ~~~packet.second.toBitVec.setWidth 32

/-- The bits of the result of `TUX_BUTTONS` before it is copied. -/
theorem buttons_getLsbD (driver : Driver) {bit : Nat} (inside : bit < 32) :
    driver.buttons.getLsbD bit =
      match bit with
      | 7 => driver.cStatic.getLsbD 3
      | 6 => driver.cStatic.getLsbD 1
      | 5 => driver.cStatic.getLsbD 2
      | 4 => driver.cStatic.getLsbD 0
      | 3 => driver.bStatic.getLsbD 3
      | 2 => driver.bStatic.getLsbD 2
      | 1 => driver.bStatic.getLsbD 1
      | 0 => driver.bStatic.getLsbD 0
      | _ => false := by
  have test (word mask result : BitVec 32) (position : Nat) (low : position < 32)
      (single : mask = BitVec.twoPow 32 position) :
      (if word &&& mask = mask then result else 0).getLsbD bit =
        (word.getLsbD position && result.getLsbD bit) := by
    rw [single, if_congr (and_twoPow_eq_iff word low) rfl rfl]
    cases word.getLsbD position <;> simp
  simp only [Driver.buttons, BitVec.getLsbD_or]
  rw [test _ 0x08 0x08 3 (by decide) rfl, test _ 0x04 0x04 2 (by decide) rfl,
    test _ 0x02 0x02 1 (by decide) rfl, test _ 0x01 0x01 0 (by decide) rfl,
    test _ 0x08 0x80 3 (by decide) rfl, test _ 0x04 0x20 2 (by decide) rfl,
    test _ 0x02 0x40 1 (by decide) rfl, test _ 0x01 0x10 0 (by decide) rfl]
  interval_cases bit <;> simp

theorem Holds.buttons {driver : Driver} {packet : Option Packet} (holds : Holds driver packet) :
    Reports driver.buttons packet := by
  intro bit inside
  rw [buttons_getLsbD driver inside]
  cases packet with
  | none =>
      rw [holds.1, holds.2]
      interval_cases bit <;> simp [pressed]
  | some packet =>
      rw [holds.1, holds.2]
      interval_cases bit <;> simp [pressed]

theorem lastBioc_cons (event : DriverEvent) (events : List DriverEvent) :
    lastBioc (event :: events) = (lastBioc events).or (biocEvent event) := by
  rw [lastBioc, lastBioc]
  cases found : biocEvent event with
  | none => rw [List.filterMap_cons_none found, Option.or_none]
  | some packet =>
      rw [List.filterMap_cons_some found, List.getLast?_cons]
      cases (events.filterMap biocEvent).getLast? <;> rfl

/-- Only a button packet changes the static variables of the buttons. -/
theorem Holds.step {driver next : Driver} {last : Option Packet} {event : DriverEvent}
    (holds : Holds driver last) (stepped : driverStep driver event = .ok next) :
    Holds next ((biocEvent event).or last) := by
  cases event with
  | ioctl ioctl =>
      cases stepped
      cases ioctl with
      | tuxInit => exact holds
      | tuxButtons readable => cases readable <;> exact holds
      | tuxSetLed arg room =>
          dsimp only [tuxctlIoctl]
          split_ifs <;> exact holds
      | other => exact holds
  | packet packet rooms =>
      cases stepped
      rw [biocEvent, Driver.tuxctlHandlePacket]
      by_cases bioc : packet.opcode = mtcpBiocEvent
      · rw [if_pos bioc, if_pos bioc]
        exact ⟨rfl, rfl⟩
      · rw [if_neg bioc, if_neg bioc]
        split_ifs <;> exact holds
  | wakeup room =>
      cases stepped
      exact holds

theorem Holds.run {driver final : Driver} {last : Option Packet} {events : List DriverEvent}
    (holds : Holds driver last) (ran : run driverStep driver events = .ok final) :
    Holds final ((lastBioc events).or last) := by
  induction events generalizing driver last with
  | nil =>
      cases ran
      exact holds
  | cons event rest ih =>
      obtain ⟨next, stepped⟩ : ∃ next, driverStep driver event = .ok next := by
        cases event <;> exact ⟨_, rfl⟩
      rw [run_cons _ _ _ _ _ stepped] at ran
      rw [lastBioc_cons, Option.or_assoc]
      exact ih (holds.step stepped) ran

/-- No event stops the driver. -/
theorem driverRun_total (driver : Driver) (events : List DriverEvent) :
    ∃ final, Library.run driverStep driver events = .ok final := by
  induction events generalizing driver with
  | nil => exact ⟨driver, rfl⟩
  | cons event rest ih =>
      obtain ⟨next, stepped⟩ : ∃ next, driverStep driver event = .ok next := by
        cases event <;> exact ⟨_, rfl⟩
      rw [run_cons _ _ _ _ _ stepped]
      exact ih next

/-- The copy of one byte into a word keeps the other three. -/
theorem load32_copyToUser (arg : BitVec 32) (byte : BitVec 8) (user : Memory) (bit : Nat) :
    (load32 (copyToUser arg [byte] user) arg).getLsbD bit =
      if bit < 8 then byte.getLsbD bit else (load32 user arg).getLsbD bit := by
  have apart (offset : BitVec 32) (nonzero : offset ≠ 0) : arg + offset ≠ arg := fun same =>
    nonzero (by simpa using same)
  rw [copyToUser, copyToUser, load32, load32, Function.update_self,
    Function.update_of_ne (apart 3 (by decide)), Function.update_of_ne (apart 2 (by decide)),
    Function.update_of_ne (apart 1 (by decide))]
  simp only [BitVec.getLsbD_append]
  split_ifs <;> rfl

/-- The bits from the second byte on are zero exactly below 256. -/
theorem toNat_lt_iff (word : BitVec 32) :
    word.toNat < 2 ^ 8 ↔ ∀ bit < 32, 8 ≤ bit → word.getLsbD bit = false := by
  constructor
  · intro small bit _ above
    exact Nat.testBit_lt_two_pow (small.trans_le (Nat.pow_le_pow_right (by decide) above))
  · intro clear
    refine Nat.lt_pow_two_of_testBit _ fun bit above => ?_
    by_cases inside : bit < 32
    · exact clear bit inside above
    · exact BitVec.getLsbD_of_ge word bit (by omega)

theorem pressed_above (packet : Option Packet) {bit : Nat} (above : 8 ≤ bit) :
    pressed packet bit = false := by
  obtain ⟨rest, rfl⟩ := Nat.exists_eq_add_of_le' above
  cases packet <;> rfl

/-- The low byte of the caller's word is the mask. The other bytes are the old ones. -/
theorem Holds.copied {driver : Driver} {packet : Option Packet} (holds : Holds driver packet)
    (arg : BitVec 32) (user : Memory) {bit : Nat} (inside : bit < 32) :
    (load32 (ioctlUser arg (.tuxButtons true) driver user).2.2 arg).getLsbD bit =
      if bit < 8 then pressed packet bit else (load32 user arg).getLsbD bit := by
  have copied : (ioctlUser arg (.tuxButtons true) driver user).2.2 =
      copyToUser arg [byteOf driver.buttons 0] user := rfl
  rw [copied, load32_copyToUser]
  by_cases low : bit < 8
  · rw [if_pos low, if_pos low, byteOf, BitVec.getLsbD_extractLsb', decide_eq_true low,
      Bool.true_and, Nat.mul_zero, Nat.zero_add, holds.buttons bit inside]
  · rw [if_neg low, if_neg low]

/-- After every history the ioctl succeeds and leaves the mask of the buttons exactly when the
word of the caller was below 256. The other ioctls leave the memory of the caller. -/
theorem tuxButtons_reports_iff (tx : Buffer) (events : List DriverEvent) (arg : BitVec 32)
    (user : Memory) : ∃ driver, run driverStep (.init tx) events = .ok driver ∧
      (ioctlUser arg (.tuxButtons true) driver user).1 = 0 ∧
      (∀ ioctl, (∀ readable, ioctl ≠ .tuxButtons readable) →
        (ioctlUser arg ioctl driver user).2.2 = user) ∧
      (Reports (load32 (ioctlUser arg (.tuxButtons true) driver user).2.2 arg) (lastBioc events) ↔
        (load32 user arg).toNat < 2 ^ 8) := by
  obtain ⟨driver, ran⟩ := driverRun_total (.init tx) events
  have initial : Holds (.init tx) none := ⟨rfl, rfl⟩
  have holds := initial.run ran
  rw [Option.or_none] at holds
  refine ⟨driver, ran, rfl, fun ioctl other => ?_, ?_⟩
  · cases ioctl with
    | tuxInit => rfl
    | tuxButtons readable => exact absurd rfl (other readable)
    | tuxSetLed arg room =>
        dsimp only [ioctlUser, tuxctlIoctl]
        split_ifs <;> rfl
    | other => rfl
  · rw [toNat_lt_iff]
    constructor
    · intro reports bit inside above
      have value := reports bit inside
      rw [holds.copied arg user inside, if_neg (by omega), pressed_above _ above] at value
      exact value
    · intro clear bit inside
      rw [holds.copied arg user inside]
      by_cases low : bit < 8
      · rw [if_pos low]
      · rw [if_neg low, pressed_above _ (by omega)]
        exact clear bit inside (by omega)

/-- The memory of a caller whose word at address 0 is 256. -/
def staleUser : Memory := fun place => if place = 1 then 1 else 0

/-- Without any packet the word stays 256, while no button is pressed. -/
theorem tuxButtons_stale :
    load32 (ioctlUser 0 (.tuxButtons true) (.init (openBuffer fun _ => 0)) staleUser).2.2 0 = 256 ∧
      ¬ Reports (load32 (ioctlUser 0 (.tuxButtons true) (.init (openBuffer fun _ => 0))
        staleUser).2.2 0) (lastBioc []) := by
  have stale : load32 (ioctlUser 0 (.tuxButtons true) (.init (openBuffer fun _ => 0))
      staleUser).2.2 0 = 256 := by decide
  refine ⟨stale, fun reports => ?_⟩
  have bit := reports 8 (by decide)
  rw [stale] at bit
  exact absurd bit (by decide)

end ComputerSystems.Tux
