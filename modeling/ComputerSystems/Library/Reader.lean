import Mathlib.Tactic

namespace ComputerSystems.Library

/-- A reader takes a finite sequence in pieces, and its position never leaves the sequence. -/
structure Reader (Value : Type*) where
  data : List Value
  position : Nat
  inData : position ≤ data.length

namespace Reader
variable {Value : Type*}

def start (data : List Value) : Reader Value := ⟨data, 0, Nat.zero_le _⟩

/-- The values before the position. -/
def consumed (reader : Reader Value) : List Value := reader.data.take reader.position

/-- The piece that a read of a number of values gets. -/
def piece (reader : Reader Value) (count : Nat) : List Value :=
  (reader.data.drop reader.position).take count

def advance (reader : Reader Value) (count : Nat) : Reader Value :=
  ⟨reader.data, min (reader.position + count) reader.data.length, Nat.min_le_right ..⟩

theorem consumed_length (reader : Reader Value) : reader.consumed.length = reader.position := by
  rw [consumed, List.length_take, Nat.min_eq_left reader.inData]

theorem piece_length (reader : Reader Value) (count : Nat) :
    (reader.piece count).length = min count (reader.data.length - reader.position) := by
  rw [piece, List.length_take, List.length_drop]

theorem piece_getElem? (reader : Reader Value) {count index : Nat}
    (inside : index < (reader.piece count).length) :
    (reader.piece count)[index]? = reader.data[reader.position + index]? := by
  rw [piece_length] at inside
  rw [piece, List.getElem?_take_of_lt (by omega), List.getElem?_drop]

theorem advance_position (reader : Reader Value) (count : Nat) :
    (reader.advance count).position = reader.position + (reader.piece count).length := by
  have inData := reader.inData
  rw [piece_length]
  change min (reader.position + count) reader.data.length = _
  omega

/-- A piece continues what has been consumed. -/
theorem advance_consumed (reader : Reader Value) (count : Nat) :
    (reader.advance count).consumed = reader.consumed ++ reader.piece count := by
  have taken : reader.consumed ++ reader.piece count =
      reader.data.take (reader.position + count) := List.take_add.symm
  rw [taken]
  exact List.take_eq_take_min.symm

/-- Reads in pieces consume as much as one read of their sum. -/
theorem advance_advance (reader : Reader Value) (first second : Nat) :
    (reader.advance first).advance second = reader.advance (first + second) := by
  simp only [advance, mk.injEq, true_and]
  omega

theorem advance_zero (reader : Reader Value) : reader.advance 0 = reader := by
  obtain ⟨data, position, inData⟩ := reader
  simp only [advance, mk.injEq, true_and]
  omega

end Reader

end ComputerSystems.Library
