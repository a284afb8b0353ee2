import ComputerSystems.Library.Run
import ComputerSystems.Proof.Tux.Buffers

namespace ComputerSystems.Tux
open Library

/-- The receive side with the bytes that came from the controller and the packets that were
handled. -/
structure Reassembly where
  receiver : Receiver
  stream : List UInt8
  handled : List Packet

/-- The receive side when the line discipline is opened. -/
def openReassembly (slots : Nat → UInt8) : Reassembly := ⟨⟨openBuffer slots, []⟩, [], []⟩

/-- A call of `tuxctl_ldisc_rcv_buf`. The run stops when a byte is dropped. -/
def reassemble (state : Reassembly) (cp : List UInt8) : Except Unit Reassembly :=
  let received := tuxctlLdiscRcvBuf cp state.receiver
  if received.1 = [] then
    .ok ⟨received.2.2, state.stream ++ cp, state.handled ++ received.2.1⟩
  else .error ()

/-- The bytes that were received and not scanned past. -/
def Receiver.unscanned (receiver : Receiver) : List UInt8 := receiver.saved ++ receiver.rx.contents

/-- The packets are those of one scan over the whole stream, no complete packet waits, and the saved
bytes and the next window fit their arrays. -/
structure Reassembled (state : Reassembly) : Prop where
  handled : state.handled = (scanPackets state.stream).1
  waiting : (scanPackets state.receiver.unscanned).1 = []
  saved : state.receiver.saved.length ≤ 2
  window : ∀ rx, (packetBytes ⟨rx, state.receiver.saved⟩).length ≤ packetSize

/-- No packet of the bytes that are to be scanned ends behind the scan window. -/
def EndsInWindow (state : Reassembly) (cp : List UInt8) : Prop :=
  let bytes := state.receiver.unscanned ++ cp
  (scanPackets bytes).1 = (scanPackets (bytes.take packetSize)).1

instance (state : Reassembly) (cp : List UInt8) : Decidable (EndsInWindow state cp) :=
  inferInstanceAs (Decidable (_ = _))

section
variable (bytes more : List UInt8)

theorem scanPackets_saved : (scanPackets bytes).2.length ≤ 2 := by
  induction bytes using scanPackets.induct with
  | case1 p0 p1 p2 rest isFramed ih =>
      rw [scanPackets, if_pos isFramed]
      exact ih
  | case2 p0 p1 p2 rest notFramed ih =>
      rw [scanPackets, if_neg notFramed]
      exact ih
  | case3 bytes short =>
      rw [scanPackets]
      · match bytes, short with
        | [], _ => exact Nat.zero_le 2
        | [_], _ => exact Nat.le_succ 1
        | [_, _], _ => exact Nat.le_refl 2
        | p0 :: p1 :: p2 :: rest, short => exact absurd rfl (short p0 p1 p2 rest)
      · exact short

/-- A scan goes on from the bytes that an earlier scan saved. -/
theorem scanPackets_append :
    scanPackets (bytes ++ more) =
      ((scanPackets bytes).1 ++ (scanPackets ((scanPackets bytes).2 ++ more)).1,
        (scanPackets ((scanPackets bytes).2 ++ more)).2) := by
  induction bytes using scanPackets.induct with
  | case1 p0 p1 p2 rest isFramed ih =>
      rw [List.cons_append, List.cons_append, List.cons_append, scanPackets, if_pos isFramed,
        scanPackets, if_pos isFramed, ih]
      rfl
  | case2 p0 p1 p2 rest notFramed ih =>
      rw [List.cons_append, List.cons_append, List.cons_append, scanPackets, if_neg notFramed,
        scanPackets, if_neg notFramed]
      exact ih
  | case3 bytes short =>
      have own : scanPackets bytes = ([], bytes) := by
        rw [scanPackets]
        exact short
      rw [own, List.nil_append]

end

section
variable (receiver : Receiver)

/-- The scan window holds the first bytes that are not scanned. -/
theorem packetBytes_eq (saved : receiver.saved.length ≤ packetSize) :
    packetBytes receiver = receiver.unscanned.take packetSize := by
  rw [packetBytes, (tuxctlLdiscGet_spec _ _).1, Receiver.unscanned, List.take_append,
    List.take_of_length_le saved]

/-- The window never exceeds its array. -/
theorem packetBytes_length (saved : receiver.saved.length ≤ 2) :
    (packetBytes receiver).length ≤ packetSize := by
  rw [packetBytes_eq receiver (saved.trans (by decide)), List.length_take]
  exact Nat.min_le_left _ _

/-- The bytes behind the window stay in the buffer. -/
theorem dataCallback_unscanned (saved : receiver.saved.length ≤ packetSize) :
    (tuxctlLdiscDataCallback receiver).2.unscanned =
      (scanPackets (receiver.unscanned.take packetSize)).2 ++
        receiver.unscanned.drop packetSize := by
  rw [Receiver.unscanned, tuxctlLdiscDataCallback]
  dsimp only
  rw [packetBytes_eq receiver saved, (tuxctlLdiscGet_spec _ _).2, Receiver.unscanned,
    List.drop_append, List.drop_eq_nil_of_le saved, List.nil_append]

/-- The packets of a call and those that wait after it are the packets that waited before it. -/
theorem dataCallback_scans (saved : receiver.saved.length ≤ packetSize) :
    scanPackets receiver.unscanned =
      ((tuxctlLdiscDataCallback receiver).1 ++
          (scanPackets (tuxctlLdiscDataCallback receiver).2.unscanned).1,
        (scanPackets (tuxctlLdiscDataCallback receiver).2.unscanned).2) := by
  have whole := scanPackets_append (receiver.unscanned.take packetSize)
    (receiver.unscanned.drop packetSize)
  rw [List.take_append_drop] at whole
  rw [whole, dataCallback_unscanned receiver saved, tuxctlLdiscDataCallback,
    packetBytes_eq receiver saved]

end

/-- One scan over the stream gives the handled packets and those that wait. -/
structure Scanned (state : Reassembly) : Prop where
  stream : scanPackets state.stream =
    (state.handled ++ (scanPackets state.receiver.unscanned).1,
      (scanPackets state.receiver.unscanned).2)
  saved : state.receiver.saved.length ≤ 2

theorem Scanned.reassembled_iff_waiting {state : Reassembly} (scanned : Scanned state) :
    Reassembled state ↔ (scanPackets state.receiver.unscanned).1 = [] := by
  constructor
  · exact Reassembled.waiting
  · intro none
    refine ⟨?_, none, scanned.saved, fun rx => packetBytes_length ⟨rx, _⟩ scanned.saved⟩
    rw [scanned.stream, none, List.append_nil]

theorem scanned_open (slots : Nat → UInt8) : Scanned (openReassembly slots) where
  stream := by
    have nothing : (openReassembly slots).receiver.unscanned = [] := rfl
    rw [nothing]
    rfl
  saved := Nat.zero_le 2

section
variable {state next : Reassembly} {cp : List UInt8}

/-- A call without a dropped byte runs the callback with all of its bytes in the buffer. -/
theorem reassemble_callback (received : reassemble state cp = .ok next) :
    ∃ receiver : Receiver, receiver.saved = state.receiver.saved ∧
      receiver.unscanned = state.receiver.unscanned ++ cp ∧
      next = ⟨(tuxctlLdiscDataCallback receiver).2, state.stream ++ cp,
        state.handled ++ (tuxctlLdiscDataCallback receiver).1⟩ := by
  rw [reassemble] at received
  split at received
  next kept =>
    cases received
    obtain ⟨dropped, stored⟩ := state.receiver.rx.fill_spec cp
    refine ⟨{ state.receiver with rx := (state.receiver.rx.fill cp).2 }, rfl, ?_, rfl⟩
    have room : cp.length ≤ state.receiver.rx.room := by
      rw [← List.drop_eq_nil_iff, ← dropped]
      exact kept
    rw [Receiver.unscanned, stored, List.take_of_length_le room, ← List.append_assoc]
    rfl
  next => cases received

theorem Scanned.step (scanned : Scanned state) (received : reassemble state cp = .ok next) :
    Scanned next := by
  obtain ⟨receiver, saved, unscanned, rfl⟩ := reassemble_callback received
  have fits : receiver.saved.length ≤ packetSize := by
    rw [saved]
    exact scanned.saved.trans (by decide)
  constructor
  · have whole := scanPackets_append state.stream cp
    have later := scanPackets_append state.receiver.unscanned cp
    rw [scanned.stream] at whole
    rw [← unscanned, dataCallback_scans receiver fits] at later
    rw [whole]
    simp only [Prod.mk.injEq] at later ⊢
    rw [← later.2, List.append_assoc, ← later.1, List.append_assoc]
    exact ⟨rfl, rfl⟩
  · rw [tuxctlLdiscDataCallback]
    exact scanPackets_saved (packetBytes receiver)

/-- A call leaves no complete packet when none ends behind its window. -/
theorem waiting_iff (scanned : Scanned state) (received : reassemble state cp = .ok next) :
    (scanPackets next.receiver.unscanned).1 = [] ↔ EndsInWindow state cp := by
  obtain ⟨receiver, saved, unscanned, rfl⟩ := reassemble_callback received
  have fits : receiver.saved.length ≤ packetSize := by
    rw [saved]
    exact scanned.saved.trans (by decide)
  have whole := congrArg Prod.fst (dataCallback_scans receiver fits)
  have window : (tuxctlLdiscDataCallback receiver).1 =
      (scanPackets (receiver.unscanned.take packetSize)).1 := by
    rw [tuxctlLdiscDataCallback, packetBytes_eq receiver fits]
  rw [EndsInWindow, ← unscanned, whole, ← window]
  exact List.append_right_eq_self.symm

end

/-- After the last call the handled packets are those of one scan over the stream, with none left
waiting, exactly when no packet ends behind the window of that call. -/
theorem reassembled_iff (slots : Nat → UInt8) (chunks : List (List UInt8)) (last : List UInt8)
    (before final : Reassembly)
    (received : run reassemble (openReassembly slots) chunks = .ok before)
    (finished : reassemble before last = .ok final) :
    Reassembled final ↔ EndsInWindow before last := by
  have scanned : Scanned before :=
    run_invariant Scanned (fun state cp next scanned _ => Scanned.step scanned)
      (scanned_open slots) (along_true reassemble (openReassembly slots) chunks) received
  rw [(scanned.step finished).reassembled_iff_waiting, waiting_iff scanned finished]

/-- A packet that is split between two calls is handled. -/
theorem reassembled_split : ∃ before final,
    run reassemble (openReassembly fun _ => 0) [[0x40, 0x80]] = .ok before ∧
      reassemble before [0x80, 0x46] = .ok final ∧ Reassembled final := by
  refine ⟨_, _, rfl, rfl, ?_⟩
  apply (reassembled_iff (fun _ => 0) [[0x40, 0x80]] [0x80, 0x46] _ _ rfl rfl).2
  decide +kernel

/-- One call with five packets handles four of them. -/
theorem reassembled_fails : ∃ final,
    run reassemble (openReassembly fun _ => 0)
        [(List.replicate 5 [0x40, 0x80, 0x80]).flatten] = .ok final ∧ ¬Reassembled final := by
  have passed : runCheck reassemble (openReassembly fun _ => 0)
      [(List.replicate 5 [0x40, 0x80, 0x80]).flatten]
      (fun state => decide (state.handled ≠ (scanPackets state.stream).1)) = true := by
    decide +kernel
  obtain ⟨final, reached, differ⟩ := runCheck_sound passed
  exact ⟨final, reached, fun same => of_decide_eq_true differ same.handled⟩

end ComputerSystems.Tux
