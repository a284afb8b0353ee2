import ComputerSystems.Construction.Tux.Throttle
import ComputerSystems.Library.PrefixCode
import ComputerSystems.Library.Run
import ComputerSystems.Proof.Tux.Buffers

namespace ComputerSystems.Tux
open Library Computability

/-- The commands of the protocol that the driver may send. -/
def commands : Language UInt8 :=
  {word | word = [mtcpBiocOn] ∨ word = [mtcpLedUsr] ∨
    ∃ mask data, word = mtcpLedSet :: mask :: data ∧ data.length = setBits mask}

/-- The bytes that entered the buffer are complete commands. -/
def WellFormed (driver : Driver) : Prop := driver.entered ∈ commands∗

/-- What can happen to the driver between two calls. The serial driver can ask for bytes itself. -/
inductive DriverEvent where
  | ioctl (ioctl : Ioctl)
  | packet (packet : Packet) (rooms : Fin 3 → Int)
  | wakeup (room : Int)

def driverStep (driver : Driver) : DriverEvent → Except Empty Driver
  | .ioctl ioctl => .ok (tuxctlIoctl ioctl driver).2.2
  | .packet packet rooms => .ok (driver.tuxctlHandlePacket packet rooms)
  | .wakeup room => .ok (driver.wakeup room)

/-- The number of used slots after one byte was put and a wakeup took bytes for the room. -/
def usedAfterByte (used : Nat) (room : Int) : Nat :=
  min (used + 1) (tuxctlBufsize - 1) - (room + 1).toNat

/-- The buffer takes all six bytes of an LED command or none. -/
def TakesWhole (used : Nat) : Prop := used + 6 < tuxctlBufsize ∨ used + 1 = tuxctlBufsize

/-- An LED command finds room for all of its bytes or for none. A reset before the first of them
finds the buffer full. -/
def SendsWhole (driver : Driver) : DriverEvent → Prop
  | .ioctl (.tuxSetLed _ _) => driver.spam = false → TakesWhole driver.tx.used
  | .packet packet rooms =>
      let used := usedAfterByte (usedAfterByte driver.tx.used (rooms 0)) (rooms 1)
      packet.opcode = mtcpReset → TakesWhole used ∧
        (driver.buffer = [0, 0, 0, 0, 0, 0] → used + 1 = tuxctlBufsize)
  | _ => True

instance (driver : Driver) (event : DriverEvent) : Decidable (SendsWhole driver event) :=
  match event with
  | .ioctl (.tuxSetLed _ _) => inferInstanceAs (Decidable (_ → _ ∨ _))
  | .packet _ _ => inferInstanceAs (Decidable (_ → (_ ∨ _) ∧ (_ → _)))
  | .ioctl (.tuxInit _ _) => .isTrue trivial
  | .ioctl (.tuxButtons _) => .isTrue trivial
  | .ioctl .other => .isTrue trivial
  | .wakeup _ => .isTrue trivial

theorem commands_prefixCode : PrefixCode commands where
  nonempty := by
    rintro (empty | empty | ⟨mask, data, empty, _⟩) <;> cases empty
  unique := by
    have biocUsr : mtcpBiocOn ≠ mtcpLedUsr := by decide
    have biocSet : mtcpBiocOn ≠ mtcpLedSet := by decide
    have usrSet : mtcpLedUsr ≠ mtcpLedSet := by decide
    rintro first (rfl | rfl | ⟨mask, data, rfl, length⟩) second
      (rfl | rfl | ⟨mask', data', rfl, length'⟩) before <;>
      simp_all [List.cons_prefix_cons]
    obtain ⟨rfl, before⟩ := before
    exact before.eq_of_length (by omega)

theorem isCommand_iff (bytes : List UInt8) : isCommand bytes = true ↔ bytes ∈ commands := by
  change _ ↔ bytes = [mtcpBiocOn] ∨ bytes = [mtcpLedUsr] ∨
    ∃ mask data, bytes = mtcpLedSet :: mask :: data ∧ data.length = setBits mask
  match bytes with
  | [] => simp [isCommand]
  | [opcode] => simp [isCommand]
  | opcode :: mask :: data => simp [isCommand, and_assoc]

/-- A stream of commands starts with an opcode. -/
theorem commands_head {byte : UInt8} {rest : List UInt8} (coded : byte :: rest ∈ commands∗) :
    byte = mtcpBiocOn ∨ byte = mtcpLedUsr ∨ byte = mtcpLedSet := by
  rw [Language.mem_kstar_iff_exists_nonempty] at coded
  obtain ⟨words, whole, own⟩ := coded
  cases words with
  | nil => cases whole
  | cons word words =>
      rcases own word List.mem_cons_self with ⟨rfl | rfl | ⟨mask, data, rfl, _⟩, _⟩
      · rw [List.flatten_cons, List.cons_append, List.cons.injEq] at whole
        exact .inl whole.1
      · rw [List.flatten_cons, List.cons_append, List.cons.injEq] at whole
        exact .inr (.inl whole.1)
      · rw [List.flatten_cons, List.cons_append, List.cons.injEq] at whole
        exact .inr (.inr whole.1)

/-- Only the command that sets the LEDs has more than one byte. -/
theorem ledSet_head {begun rest : List UInt8} {byte : UInt8}
    (coded : begun ++ byte :: rest ∈ commands) (more : rest ≠ []) :
    (begun ++ [byte]).headD 0 = mtcpLedSet := by
  have long : 1 < (begun ++ byte :: rest).length := by
    have positive := List.length_pos_iff.2 more
    rw [List.length_append, List.length_cons]
    omega
  rcases coded with bioc | usr | ⟨mask, data, set, _⟩
  · rw [bioc] at long
    exact absurd long (by decide)
  · rw [usr] at long
    exact absurd long (by decide)
  · cases begun with
    | nil => exact List.head_eq_of_cons_eq set
    | cons opcode begun => exact List.head_eq_of_cons_eq set

theorem ledBuffer_mem (arg : BitVec 32) : ledBuffer arg ∈ commands :=
  .inr (.inr ⟨0x0F, _, rfl, rfl⟩)

theorem ledBuffer_ne_zeros (arg : BitVec 32) : ledBuffer arg ≠ [0, 0, 0, 0, 0, 0] := by
  intro same
  have unknown : mtcpLedSet ≠ 0 := by decide
  exact unknown (List.head_eq_of_cons_eq same)

section
variable (driver : Driver) {buf : List UInt8}

theorem put_entered (room : Int) :
    (driver.put buf room).entered = driver.entered ++ buf.take driver.tx.room := by
  rw [← acceptedBytes_eq]
  rfl

theorem put_used (room : Int) :
    (driver.put buf room).tx.used =
      min (driver.tx.used + buf.length) (tuxctlBufsize - 1) - (room + 1).toNat := by
  rw [← storeOutput_used]
  exact takeOutput_used _ room

variable {driver}

/-- A put of a command keeps the stream well-formed when it takes the whole command or nothing. -/
theorem put_wellFormed_iff (wellFormed : WellFormed driver) (coded : buf ∈ commands) (room : Int) :
    WellFormed (driver.put buf room) ↔ driver.tx.room = 0 ∨ buf.length ≤ driver.tx.room := by
  unfold WellFormed at wellFormed ⊢
  rw [put_entered, commands_prefixCode.append_iff wellFormed, commands_prefixCode.take_iff coded]

theorem putByte_wellFormed (wellFormed : WellFormed driver) {opcode : UInt8}
    (coded : [opcode] ∈ commands) (room : Int) : WellFormed (driver.put [opcode] room) := by
  rw [put_wellFormed_iff wellFormed coded, List.length_singleton]
  omega

/-- A put of the first state of the LED buffer keeps the stream well-formed when it takes
nothing. -/
theorem putZeros_wellFormed_iff (wellFormed : WellFormed driver) (room : Int) :
    WellFormed (driver.put [0, 0, 0, 0, 0, 0] room) ↔ driver.tx.room = 0 := by
  unfold WellFormed at wellFormed ⊢
  rw [put_entered, commands_prefixCode.append_iff wellFormed]
  constructor
  · intro coded
    cases space : driver.tx.room with
    | zero => rfl
    | succ more =>
        rw [space, List.take_succ_cons] at coded
        have unknown : ¬((0 : UInt8) = mtcpBiocOn ∨ 0 = mtcpLedUsr ∨ 0 = mtcpLedSet) := by decide
        exact absurd (commands_head coded) unknown
  · intro full
    rw [full]
    exact Language.nil_mem_kstar commands

/-- The driver after both puts of `TUX_INIT`, which a reset also makes. -/
theorem enabled_wellFormed (wellFormed : WellFormed driver) (first second : Int) :
    WellFormed ((driver.put [mtcpBiocOn] first).put [mtcpLedUsr] second) :=
  putByte_wellFormed (putByte_wellFormed wellFormed (.inl rfl) first) (.inr (.inl rfl)) second

theorem enabled_used (first second : Int) :
    ((driver.put [mtcpBiocOn] first).put [mtcpLedUsr] second).tx.used =
      usedAfterByte (usedAfterByte driver.tx.used first) second := by
  rw [put_used, put_used]
  rfl

end

/-- The LED buffer is in its first state or holds a command. -/
def Saved (driver : Driver) : Prop :=
  driver.buffer = [0, 0, 0, 0, 0, 0] ∨ ∃ arg, driver.buffer = ledBuffer arg

theorem room_whole_iff (driver : Driver) :
    (driver.tx.room = 0 ∨ 6 ≤ driver.tx.room) ↔ TakesWhole driver.tx.used := by
  have bound := driver.tx.used_lt
  unfold TakesWhole Ring.room
  simp only [tuxctlBufsize] at bound ⊢
  omega

theorem room_full_iff (driver : Driver) :
    driver.tx.room = 0 ↔ driver.tx.used + 1 = tuxctlBufsize := by
  have bound := driver.tx.used_lt
  unfold Ring.room
  simp only [tuxctlBufsize] at bound ⊢
  omega

/-- A put of the LED buffer by a reset. -/
theorem putBuffer_wellFormed_iff {driver : Driver} (wellFormed : WellFormed driver)
    (saved : Saved driver) (room : Int) :
    WellFormed (driver.put driver.buffer room) ↔ TakesWhole driver.tx.used ∧
      (driver.buffer = [0, 0, 0, 0, 0, 0] → driver.tx.used + 1 = tuxctlBufsize) := by
  rcases saved with zeros | ⟨arg, command⟩
  · rw [zeros, putZeros_wellFormed_iff wellFormed, room_full_iff]
    exact ⟨fun full => ⟨.inr full, fun _ => full⟩, fun both => both.2 rfl⟩
  · rw [command, put_wellFormed_iff wellFormed (ledBuffer_mem arg)]
    rw [and_iff_left fun same => absurd same (ledBuffer_ne_zeros arg), ← room_whole_iff]
    rfl

theorem Saved.step {driver next : Driver} {event : DriverEvent} (saved : Saved driver)
    (stepped : driverStep driver event = .ok next) : Saved next := by
  cases event with
  | ioctl ioctl =>
      cases stepped
      cases ioctl with
      | tuxInit biocRoom usrRoom => exact saved
      | tuxButtons readable => cases readable <;> exact saved
      | tuxSetLed arg room =>
          rw [tuxctlIoctl]
          split
          next => exact saved
          next => exact .inr ⟨arg, rfl⟩
      | other => exact saved
  | packet packet rooms =>
      cases stepped
      unfold Driver.tuxctlHandlePacket
      split_ifs <;> exact saved
  | wakeup room =>
      cases stepped
      exact saved

theorem ioctl_wellFormed_iff {driver : Driver} (wellFormed : WellFormed driver) (ioctl : Ioctl) :
    SendsWhole driver (.ioctl ioctl) ↔ WellFormed (tuxctlIoctl ioctl driver).2.2 := by
  cases ioctl with
  | tuxInit biocRoom usrRoom =>
      exact iff_of_true trivial (enabled_wellFormed wellFormed biocRoom usrRoom)
  | tuxButtons readable => cases readable <;> exact iff_of_true trivial wellFormed
  | tuxSetLed arg room =>
      rw [SendsWhole, tuxctlIoctl]
      split
      next spam => simpa [spam] using wellFormed
      next free =>
        rw [Bool.not_eq_true] at free
        let prepared : Driver := { driver with buffer := ledBuffer arg }
        change _ ↔ WellFormed (prepared.put (ledBuffer arg) room)
        have before : WellFormed prepared := wellFormed
        rw [forall_prop_of_true free, put_wellFormed_iff before (ledBuffer_mem arg)]
        exact (room_whole_iff prepared).symm
  | other => exact iff_of_true trivial wellFormed

theorem packet_wellFormed_iff {driver : Driver} (wellFormed : WellFormed driver)
    (saved : Saved driver) (packet : Packet) (rooms : Fin 3 → Int) :
    SendsWhole driver (.packet packet rooms) ↔
      WellFormed (driver.tuxctlHandlePacket packet rooms) := by
  rw [SendsWhole, Driver.tuxctlHandlePacket]
  split
  next bioc =>
    have other : mtcpBiocEvent ≠ mtcpReset := by decide
    exact iff_of_true (fun reset => absurd (bioc.symm.trans reset) other) wellFormed
  next =>
    split
    next ack =>
      have other : mtcpAck ≠ mtcpReset := by decide
      exact iff_of_true (fun reset => absurd (ack.symm.trans reset) other) wellFormed
    next =>
      split
      next reset =>
        rw [forall_prop_of_true reset, ← enabled_used]
        exact (putBuffer_wellFormed_iff (enabled_wellFormed wellFormed (rooms 0) (rooms 1)) saved
          (rooms 2)).symm
      next other => exact iff_of_true (fun reset => absurd reset other) wellFormed

/-- The bytes that enter the transmit buffer are complete commands throughout a run exactly when
each LED command finds room for all of its bytes or for none, and no reset sends the first state
of the LED buffer. -/
theorem entered_wellFormed_iff (tx : Buffer) (events : List DriverEvent) :
    Always WellFormed driverStep (Driver.init tx) events ↔
      Along SendsWhole driverStep (Driver.init tx) events := by
  apply always_iff_along Saved
  · intro driver event next saved stepped
    exact saved.step stepped
  · intro driver event saved wellFormed
    cases event with
    | ioctl ioctl => simpa [driverStep] using ioctl_wellFormed_iff wellFormed ioctl
    | packet packet rooms =>
        simpa [driverStep] using packet_wellFormed_iff wellFormed saved packet rooms
    | wakeup room =>
        have same : WellFormed (driver.wakeup room) := wellFormed
        simpa [driverStep, SendsWhole] using same
  · exact .inl rfl
  · exact Language.nil_mem_kstar commands


/-- The driver is initialized, sets its LEDs, and restores them after a reset. -/
example : Along SendsWhole driverStep (Driver.init (openBuffer fun _ => 0))
    [.ioctl (.tuxInit 9 9), .ioctl (.tuxSetLed 0x0F0F1234 9),
      .packet ⟨mtcpReset, 0x80, 0x80⟩ fun _ => 9] := by
  decide +kernel

/-- A transmit buffer with three bytes of room. -/
def nearlyFull : Buffer := ⟨fun _ => 0, 1, 61, by decide, by decide⟩

/-- A reset before the first `TUX_SET_LED` sends six zeros. A nearly full buffer takes the first
three bytes of an LED command. -/
theorem entered_incomplete :
    ¬Always WellFormed driverStep (Driver.init (openBuffer fun _ => 0))
      [.packet ⟨mtcpReset, 0x80, 0x80⟩ fun _ => 9] ∧
    ¬Always WellFormed driverStep (Driver.init nearlyFull) [.ioctl (.tuxSetLed 0x0F0F1234 9)] := by
  have initially (tx : Buffer) : WellFormed (Driver.init tx) := Language.nil_mem_kstar commands
  constructor
  · intro always
    have after := (packet_wellFormed_iff (initially _) (.inl rfl) _ _).2 (always.2 _ rfl)
    revert after
    decide +kernel
  · intro always
    have after := (ioctl_wellFormed_iff (initially nearlyFull) _).2 (always.2 _ rfl)
    revert after
    decide +kernel

end ComputerSystems.Tux
