import ComputerSystems.Library.Loop

namespace ComputerSystems.Library

/-- A memory that logs the addresses of its loads and stores. -/
structure Logged (Address Value : Type*) where
  memory : Address → Value
  touched : List Address

namespace Logged
variable {Address Value : Type*}

def load (address : Address) (logged : Logged Address Value) : Value × Logged Address Value :=
  (logged.memory address, ⟨logged.memory, address :: logged.touched⟩)

variable [DecidableEq Address]

def store (address : Address) (value : Value) (logged : Logged Address Value) :
    Logged Address Value :=
  ⟨Function.update logged.memory address value, address :: logged.touched⟩

/-- A move loads from the source and stores to the target. -/
def move (source target : Address) (logged : Logged Address Value) : Logged Address Value :=
  (logged.load source).2.store target (logged.load source).1

end Logged

/-- All accesses in between are in the range, and the rest of the memory is the same. -/
structure Confined {Address Value : Type*} (range : Set Address)
    (before after : Logged Address Value) : Prop where
  touched : ∀ address ∈ after.touched, address ∈ before.touched ∨ address ∈ range
  outside : ∀ address, address ∉ range → after.memory address = before.memory address

namespace Confined
variable {Address Value : Type*} {range : Set Address}
variable {before middle after : Logged Address Value}

theorem refl (range : Set Address) (logged : Logged Address Value) :
    Confined range logged logged :=
  ⟨fun _ member => .inl member, fun _ _ => rfl⟩

theorem trans (first : Confined range before middle) (second : Confined range middle after) :
    Confined range before after := by
  constructor
  · intro address member
    rcases second.touched address member with earlier | inside
    · exact first.touched address earlier
    · exact .inr inside
  · intro address apart
    rw [second.outside address apart, first.outside address apart]

theorem load {address : Address} (inside : address ∈ range) (logged : Logged Address Value) :
    Confined range logged (logged.load address).2 := by
  constructor
  · intro other member
    rcases List.mem_cons.1 member with rfl | earlier
    · exact .inr inside
    · exact .inl earlier
  · exact fun _ _ => rfl

/-- One more load in the range. -/
theorem loaded (confined : Confined range before after) {address : Address}
    (inside : address ∈ range) : Confined range before (after.load address).2 :=
  confined.trans (load inside after)

theorem store [DecidableEq Address] {address : Address} (inside : address ∈ range)
    (value : Value) (logged : Logged Address Value) :
    Confined range logged (logged.store address value) := by
  constructor
  · intro other member
    rcases List.mem_cons.1 member with rfl | earlier
    · exact .inr inside
    · exact .inl earlier
  · intro other apart
    apply Function.update_of_ne
    rintro rfl
    exact apart inside

theorem move [DecidableEq Address] {source target : Address} (loaded : source ∈ range)
    (stored : target ∈ range) (logged : Logged Address Value) :
    Confined range logged (logged.move source target) :=
  (load loaded logged).trans (store stored _ _)

/-- A loop of confined rounds is confined. -/
theorem forLoop {body : Nat → Logged Address Value → Logged Address Value} {first count : Nat}
    (confined : ∀ index current, first ≤ index → index < first + count →
      Confined range current (body index current)) (logged : Logged Address Value) :
    Confined range logged (Library.forLoop body first count logged) := by
  apply forLoop_rule fun _ current => Confined range logged current
  · exact refl range logged
  · intro done current early before
    exact before.trans (confined (first + done) current (by omega) (by omega))

end Confined

end ComputerSystems.Library
