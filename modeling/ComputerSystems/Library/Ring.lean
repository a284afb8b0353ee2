import ComputerSystems.Library.Loop

namespace ComputerSystems.Library

/-- A ring of slots between two indices. One slot stays empty, so that a full ring is not taken
for an empty one. -/
structure Ring (Value : Type*) (size : Nat) where
  slots : Nat → Value
  start : Nat
  stop : Nat
  startInside : start < size
  stopInside : stop < size

namespace Ring
variable {Value : Type*} {size : Nat}

def used (ring : Ring Value size) : Nat :=
  if ring.start ≤ ring.stop then ring.stop - ring.start else size + ring.stop - ring.start

def room (ring : Ring Value size) : Nat := size - ring.used - 1

def empty (ring : Ring Value size) : Bool := ring.start == ring.stop

def full (ring : Ring Value size) : Bool := (ring.stop + 1) % size == ring.start

/-- The value goes to the slot at the end. -/
def push (value : Value) (ring : Ring Value size) : Ring Value size where
  slots := Function.update ring.slots ring.stop value
  start := ring.start
  stop := (ring.stop + 1) % size
  startInside := ring.startInside
  stopInside := Nat.mod_lt _ (Nat.zero_lt_of_lt ring.stopInside)

def pop (ring : Ring Value size) : Value × Ring Value size :=
  (ring.slots ring.start, { ring with
    start := (ring.start + 1) % size
    startInside := Nat.mod_lt _ (Nat.zero_lt_of_lt ring.startInside) })

/-- The values in the ring from the oldest to the newest. -/
def contents (ring : Ring Value size) : List Value :=
  (List.range ring.used).map fun index => ring.slots ((ring.start + index) % size)

/-- Values are pushed until they are used up or the ring is full. The rest is returned. -/
def fill : List Value → Ring Value size → List Value × Ring Value size
  | [], ring => ([], ring)
  | value :: rest, ring =>
      if ring.full then (value :: rest, ring) else fill rest (ring.push value)

/-- Values are popped while the guard on their number holds and the ring is not empty. -/
def drain (guard : Nat → Bool) (ring : Ring Value size) : List Value × Ring Value size :=
  whileLoop (fun state => guard state.1.length && !state.2.empty)
    (fun state => (state.1 ++ [state.2.pop.1], state.2.pop.2)) size ([], ring)

theorem used_lt (ring : Ring Value size) : ring.used < size := by
  have start := ring.startInside
  have stop := ring.stopInside
  unfold used
  split <;> omega

theorem contents_length (ring : Ring Value size) : ring.contents.length = ring.used := by
  rw [contents, List.length_map, List.length_range]

theorem empty_iff (ring : Ring Value size) : ring.empty = true ↔ ring.used = 0 := by
  have start := ring.startInside
  have stop := ring.stopInside
  unfold empty used
  rw [beq_iff_eq]
  split <;> omega

/-- An index wraps around at most once. -/
theorem wrap_index {index : Nat} (bound : index < 2 * size) :
    index % size = if index < size then index else index - size := by
  split
  next inside => exact Nat.mod_eq_of_lt inside
  next beyond => rw [Nat.mod_eq_sub_mod (by omega), Nat.mod_eq_of_lt (by omega)]

theorem full_iff (ring : Ring Value size) : ring.full = true ↔ ring.used + 1 = size := by
  have start := ring.startInside
  have stop := ring.stopInside
  unfold full used
  rw [beq_iff_eq, wrap_index (by omega)]
  split_ifs <;> omega

theorem push_used {ring : Ring Value size} (notFull : ring.full = false) (value : Value) :
    (ring.push value).used = ring.used + 1 := by
  have start := ring.startInside
  have stop := ring.stopInside
  have next : (ring.push value).stop = (ring.stop + 1) % size := rfl
  unfold full at notFull
  rw [beq_eq_false_iff_ne] at notFull
  rw [wrap_index (by omega)] at notFull next
  unfold used
  rw [next, show (ring.push value).start = ring.start from rfl]
  split_ifs at notFull ⊢ <;> omega

theorem pop_used {ring : Ring Value size} (nonempty : ring.empty = false) :
    ring.pop.2.used + 1 = ring.used := by
  have start := ring.startInside
  have stop := ring.stopInside
  have next : ring.pop.2.start = (ring.start + 1) % size := rfl
  unfold empty at nonempty
  rw [beq_eq_false_iff_ne] at nonempty
  rw [wrap_index (by omega)] at next
  unfold used
  rw [next, show ring.pop.2.stop = ring.stop from rfl]
  split_ifs <;> omega

/-- The slot behind the contents is the one at the end. -/
theorem slot_eq_stop_iff (ring : Ring Value size) {index : Nat} (inside : index ≤ ring.used) :
    (ring.start + index) % size = ring.stop ↔ index = ring.used := by
  have start := ring.startInside
  have stop := ring.stopInside
  have used := ring.used_lt
  rw [wrap_index (by omega)]
  unfold Ring.used at inside used ⊢
  split_ifs at inside used ⊢ <;> omega

/-- A push adds the value at the end. -/
theorem contents_push {ring : Ring Value size} (notFull : ring.full = false) (value : Value) :
    (ring.push value).contents = ring.contents ++ [value] := by
  unfold contents
  rw [push_used notFull, List.range_succ, List.map_append, List.map_singleton]
  congr 1
  · apply List.map_congr_left
    intro index inside
    rw [List.mem_range] at inside
    apply Function.update_of_ne
    exact fun same => Nat.ne_of_lt inside ((ring.slot_eq_stop_iff inside.le).1 same)
  · change [Function.update ring.slots ring.stop value ((ring.start + ring.used) % size)] = _
    rw [(ring.slot_eq_stop_iff (Nat.le_refl _)).2 rfl, Function.update_self]

/-- A pop takes the value at the front. -/
theorem contents_pop {ring : Ring Value size} (nonempty : ring.empty = false) :
    ring.contents = ring.pop.1 :: ring.pop.2.contents := by
  unfold contents
  rw [← pop_used nonempty, List.range_succ_eq_map, List.map_cons, List.map_map]
  congr 1
  · change ring.slots ((ring.start + 0) % size) = ring.slots ring.start
    rw [Nat.add_zero, Nat.mod_eq_of_lt ring.startInside]
  · apply List.map_congr_left
    intro index _
    change ring.slots ((ring.start + (index + 1)) % size) =
      ring.slots (((ring.start + 1) % size + index) % size)
    rw [Nat.mod_add_mod, Nat.add_right_comm, ← Nat.add_assoc]

/-- A fill stores as many values as there is room for, and returns the rest. -/
theorem fill_spec (values : List Value) (ring : Ring Value size) :
    (ring.fill values).1 = values.drop ring.room ∧
      (ring.fill values).2.contents = ring.contents ++ values.take ring.room := by
  induction values generalizing ring with
  | nil => simp [fill]
  | cons value rest ih =>
      have used := ring.used_lt
      rw [fill]
      by_cases full : ring.full = true
      · have none : ring.room = 0 := by
          rw [full_iff] at full
          unfold room
          omega
        simp [full, none]
      · rw [Bool.not_eq_true] at full
        have left : ring.room = (ring.push value).room + 1 := by
          have notFull := mt ring.full_iff.2 (by simp [full])
          unfold room
          rw [push_used full]
          omega
        obtain ⟨remaining, stored⟩ := ih (ring.push value)
        simp [full, left, remaining, stored, contents_push full]

/-- A drain whose guard is a limit takes that many values from the front. -/
theorem drain_spec {guard : Nat → Bool} {limit : Nat}
    (limits : ∀ taken, guard taken = true ↔ taken < limit) (ring : Ring Value size) :
    (ring.drain guard).1 = ring.contents.take limit ∧
      (ring.drain guard).2.contents = ring.contents.drop limit := by
  have drained := whileLoop_rule
    (fun state : List Value × Ring Value size => guard state.1.length && !state.2.empty)
    (fun state => (state.1 ++ [state.2.pop.1], state.2.pop.2))
    (fun state => state.1 ++ state.2.contents = ring.contents ∧ state.1.length ≤ limit)
    (fun state => state.2.used)
    (by
      rintro ⟨taken, left⟩ ⟨whole, few⟩ running
      rw [Bool.and_eq_true, limits, Bool.not_eq_true'] at running
      obtain ⟨more, nonempty⟩ := running
      have popped : left.pop.2.used + 1 = left.used := pop_used nonempty
      refine ⟨⟨?_, ?_⟩, ?_⟩
      · rw [← whole, contents_pop nonempty]
        simp
      · simpa using more
      · change left.pop.2.used < left.used
        omega)
    size ([], ring) ⟨rfl, Nat.zero_le _⟩ ring.used_lt.le
  rw [← drain] at drained
  obtain ⟨⟨whole, few⟩, stopped⟩ := drained
  generalize ring.drain guard = final at whole few stopped ⊢
  obtain ⟨taken, left⟩ := final
  dsimp only at whole few stopped ⊢
  rw [Bool.and_eq_false_iff] at stopped
  rw [← whole]
  rcases stopped with reached | exhausted
  · have all : taken.length = limit := by
      have notMore := mt (limits taken.length).2 (by simp [reached])
      omega
    rw [← all, List.take_left, List.drop_left]
    exact ⟨rfl, rfl⟩
  · have nothing : left.contents = [] := by
      rw [Bool.not_eq_false'] at exhausted
      rw [← List.length_eq_zero_iff, contents_length]
      exact left.empty_iff.1 exhausted
    rw [nothing, List.append_nil, List.take_of_length_le few, List.drop_eq_nil_of_le few]
    exact ⟨rfl, rfl⟩

end Ring

end ComputerSystems.Library
