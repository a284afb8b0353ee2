import ComputerSystems.Library.Calls
import ComputerSystems.Library.Run
import ComputerSystems.Proof.Tux.Buffers

namespace ComputerSystems.Tux
open Library

/-- The transmit side with its calls in progress. A call of `write_wakeup` has started, or it holds
the bytes that it took and the room that it was told. The two logs are the bytes that entered the
buffer and those that the serial driver accepted. -/
structure Transmitter where
  tx : Buffer
  started : Nat
  holding : List (List UInt8 × Nat)
  entered : List UInt8
  sent : List UInt8

/-- The steps of the calls that can interleave. A call of `tuxctl_ldisc_put` ends with a wakeup. -/
inductive TransmitEvent where
  | put (buf : List UInt8)
  | wakeup
  | take (room : Nat)
  | write (index : Nat)
  deriving DecidableEq

/-- The serial driver accepts as many bytes as it has room for. A step of no call is refused. -/
def transmitStep (state : Transmitter) : TransmitEvent → Except Unit Transmitter
  | .put buf =>
      .ok { state with
        tx := (storeOutput buf state.tx).2
        entered := state.entered ++ acceptedBytes buf state.tx
        started := state.started + 1 }
  | .wakeup => .ok { state with started := state.started + 1 }
  | .take room =>
      if state.started = 0 then .error ()
      else
        .ok { state with
          tx := (takeOutput room state.tx).2
          started := state.started - 1
          holding := state.holding ++ [((takeOutput room state.tx).1, room)] }
  | .write index =>
      match state.holding[index]? with
      | none => .error ()
      | some (buf, room) =>
          .ok { state with
            holding := state.holding.eraseIdx index
            sent := state.sent ++ buf.take room }

def openTransmitter (slots : Nat → UInt8) : Transmitter := ⟨openBuffer slots, 0, [], [], []⟩

/-- When no call holds bytes, the accepted bytes and those in the buffer are what entered it. -/
def Conserved (state : Transmitter) : Prop :=
  state.holding = [] → state.sent ++ state.tx.contents = state.entered

instance : DecidablePred Conserved := fun state => by
  unfold Conserved
  infer_instance

/-- A wakeup finds no more bytes in the buffer than the driver has room for. -/
def TakesFit (state : Transmitter) : TransmitEvent → Prop
  | .take room => state.tx.used ≤ room
  | _ => True

/-- A call writes before the calls that took their bytes later. -/
def WritesInOrder (state : Transmitter) : TransmitEvent → Prop
  | .write index => ∀ call ∈ state.holding.take index, call.1 = []
  | _ => True

instance (state : Transmitter) (event : TransmitEvent) : Decidable (TakesFit state event) := by
  cases event <;> unfold TakesFit <;> infer_instance

instance (state : Transmitter) (event : TransmitEvent) : Decidable (WritesInOrder state event) := by
  cases event <;> unfold WritesInOrder <;> infer_instance

/-- The bytes that the calls in progress hold stand between the accepted bytes and the buffer, and
each call holds no more of them than the room that it was told. -/
structure Accounted (state : Transmitter) : Prop where
  inOrder : state.sent ++ (state.holding.map Prod.fst).flatten ++ state.tx.contents = state.entered
  fits : ∀ call ∈ state.holding, call.1.length ≤ call.2

/-- The number of bytes that the driver accepts from the calls in progress. -/
def deliverable (holding : List (List UInt8 × Nat)) : Nat :=
  (holding.map fun call => min call.1.length call.2).sum

/-- The bytes that are accepted, deliverable, or in the buffer. -/
def Transmitter.remaining (state : Transmitter) : Nat :=
  state.sent.length + deliverable state.holding + state.tx.used

section
variable {state next : Transmitter}

theorem accounted_open (slots : Nat → UInt8) : Accounted (openTransmitter slots) where
  inOrder := by
    have nothing : (openTransmitter slots).tx.contents = [] := rfl
    rw [nothing]
    rfl
  fits := by
    intro call member
    cases member

theorem Accounted.conserved (accounted : Accounted state) : Conserved state := by
  intro none
  have inOrder := accounted.inOrder
  rw [none] at inOrder
  simpa using inOrder

theorem transmitStep_take {room : Nat} (stepped : transmitStep state (.take room) = .ok next) :
    next = { state with
      tx := (takeOutput room state.tx).2
      started := state.started - 1
      holding := state.holding ++ [((takeOutput room state.tx).1, room)] } := by
  rw [transmitStep] at stepped
  split at stepped
  · cases stepped
  · cases stepped
    rfl

theorem transmitStep_write {index : Nat} (stepped : transmitStep state (.write index) = .ok next) :
    ∃ buf room, state.holding[index]? = some (buf, room) ∧
      next = { state with
        holding := state.holding.eraseIdx index
        sent := state.sent ++ buf.take room } := by
  rw [transmitStep] at stepped
  split at stepped
  · cases stepped
  next buf room found =>
    cases stepped
    exact ⟨buf, room, found, rfl⟩

theorem Accounted.step {event : TransmitEvent} (accounted : Accounted state)
    (fit : TakesFit state event) (ordered : WritesInOrder state event)
    (stepped : transmitStep state event = .ok next) : Accounted next := by
  obtain ⟨inOrder, fits⟩ := accounted
  cases event with
  | put buf =>
      cases stepped
      refine ⟨?_, fits⟩
      dsimp only
      rw [storeOutput_contents, ← List.append_assoc, inOrder]
  | wakeup =>
      cases stepped
      exact ⟨inOrder, fits⟩
  | take room =>
      obtain rfl := transmitStep_take stepped
      obtain ⟨taken, left⟩ := takeOutput_spec state.tx room
      constructor
      · dsimp only
        rw [taken, left, ← inOrder]
        simp
      · intro call member
        rcases List.mem_append.1 member with before | new
        · exact fits call before
        · rw [List.mem_singleton.1 new]
          dsimp only
          rw [taken, List.length_take, Ring.contents_length]
          exact (Nat.min_le_right _ _).trans fit
  | write index =>
      obtain ⟨buf, room, found, rfl⟩ := transmitStep_write stepped
      have whole := calls_split found
      have erased := state.holding.eraseIdx_eq_take_drop_succ index
      have earlier : ((state.holding.take index).map Prod.fst).flatten = [] := by
        rw [List.flatten_eq_nil_iff]
        intro bytes member
        obtain ⟨call, before, rfl⟩ := List.mem_map.1 member
        exact ordered call before
      have own : buf.length ≤ room := fits (buf, room) (List.mem_of_getElem? found)
      constructor
      · dsimp only
        rw [← inOrder, erased, List.take_of_length_le own]
        conv_rhs => rw [whole]
        simp only [List.map_append, List.map_cons, List.flatten_append, List.flatten_cons,
          earlier, List.nil_append, List.append_assoc]
      · intro call member
        exact fits call (List.mem_of_mem_eraseIdx member)

/-- A step adds to the remaining bytes at most those that enter the buffer. It adds fewer when a
wakeup finds more bytes than there is room for. -/
theorem remaining_step {event : TransmitEvent} (stepped : transmitStep state event = .ok next) :
    next.remaining + state.entered.length ≤ state.remaining + next.entered.length ∧
      (¬TakesFit state event →
        next.remaining + state.entered.length < state.remaining + next.entered.length) := by
  unfold Transmitter.remaining
  cases event with
  | put buf =>
      cases stepped
      have stored := congrArg List.length (storeOutput_contents state.tx buf)
      simp only [List.length_append, Ring.contents_length] at stored ⊢
      refine ⟨by omega, fun failed => absurd trivial failed⟩
  | wakeup =>
      cases stepped
      exact ⟨Nat.le_refl _, fun failed => absurd trivial failed⟩
  | take room =>
      obtain rfl := transmitStep_take stepped
      have left := takeOutput_used state.tx room
      have size : (takeOutput room state.tx).1.length = min (room + 1) state.tx.used := by
        rw [(takeOutput_spec state.tx room).1, List.length_take, Ring.contents_length]
        rfl
      simp only [deliverable, List.map_append, List.map_cons, List.map_nil, List.sum_append,
        List.sum_cons, List.sum_nil, TakesFit]
      omega
  | write index =>
      obtain ⟨buf, room, found, rfl⟩ := transmitStep_write stepped
      have whole := calls_split found
      have erased := state.holding.eraseIdx_eq_take_drop_succ index
      have own : deliverable state.holding =
          deliverable (state.holding.eraseIdx index) + min buf.length room := by
        rw [erased]
        conv_lhs => rw [whole]
        simp only [deliverable, List.map_append, List.map_cons, List.sum_append, List.sum_cons]
        omega
      refine ⟨?_, fun failed => absurd trivial failed⟩
      simp only [List.length_append, List.length_take]
      omega

end

/-- No transmitted byte is lost, duplicated, or reordered when each wakeup finds room for the bytes
of the buffer and the calls write in order. A run that loses no byte has such room throughout. -/
theorem transmit_conserves (slots : Nat → UInt8) (events : List TransmitEvent) :
    (Along (fun state event => TakesFit state event ∧ WritesInOrder state event) transmitStep
        (openTransmitter slots) events →
      Always Conserved transmitStep (openTransmitter slots) events) ∧
    ∀ final, run transmitStep (openTransmitter slots) events = .ok final →
      final.holding = [] → final.sent ++ final.tx.contents = final.entered →
      Along TakesFit transmitStep (openTransmitter slots) events := by
  constructor
  · intro allowed
    apply always_of_along Accounted _ (fun state => Accounted.conserved) (accounted_open slots)
      allowed
    intro state event next accounted condition stepped
    exact accounted.step condition.1 condition.2 stepped
  · intro final reached done whole
    apply run_unspoiled (fun state => state.remaining ≤ state.entered.length)
      (fun state => state.remaining < state.entered.length) _ _ _ _ reached
    · have length := congrArg List.length whole
      rw [List.length_append, Ring.contents_length] at length
      rw [Transmitter.remaining, done, deliverable, List.map_nil, List.sum_nil]
      omega
    · intro state event next balanced stepped
      have step := (remaining_step stepped).1
      omega
    · intro state event next balanced failed stepped
      have step := (remaining_step stepped).2 failed
      omega
    · intro state event next missing stepped
      have step := (remaining_step stepped).1
      omega
    · exact Nat.le_refl 0

/-- Two puts are written and accepted. -/
theorem transmit_conserves_run :
    Always Conserved transmitStep (openTransmitter fun _ => 0)
      [.put [1, 2], .take 5, .write 0, .put [3], .take 1, .write 0] := by
  apply (transmit_conserves (fun _ => 0) _).1
  decide +kernel

/-- A byte is lost when the driver has no room, since the wakeup takes one byte too many. Two calls
reorder their bytes when the second writes first. -/
theorem transmit_loses :
    (¬Always Conserved transmitStep (openTransmitter fun _ => 0)
      [.put [5], .take 0, .write 0]) ∧
    ¬Always Conserved transmitStep (openTransmitter fun _ => 0)
      [.put [1], .take 9, .put [2], .take 9, .write 1, .write 0] := by
  constructor
  · apply not_always_of_runCheck
    decide +kernel
  · apply not_always_of_runCheck
    decide +kernel

end ComputerSystems.Tux
