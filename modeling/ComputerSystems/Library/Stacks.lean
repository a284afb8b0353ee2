import Mathlib.Tactic

namespace ComputerSystems.Library

variable {Index Item : Type*}

/-- The list follows the links from its first item to the end mark. -/
def Links (next : Item → Item) (nil : Item) : Item → List Item → Prop
  | first, [] => first = nil
  | first, item :: rest => first = item ∧ item ≠ nil ∧ Links next nil (next item) rest

theorem Links.nil_notMem {next : Item → Item} {nil first : Item} {list : List Item}
    (linked : Links next nil first list) : nil ∉ list := by
  induction list generalizing first with
  | nil => exact List.not_mem_nil
  | cons item rest ih =>
      intro member
      rcases List.mem_cons.1 member with same | later
      · exact linked.2.1 same.symm
      · exact ih linked.2.2 later

/-- Only the links of the listed items matter. -/
theorem Links.congr {next other : Item → Item} {nil first : Item} {list : List Item}
    (same : ∀ item ∈ list, other item = next item) (linked : Links next nil first list) :
    Links other nil first list := by
  induction list generalizing first with
  | nil => exact linked
  | cons item rest ih =>
      refine ⟨linked.1, linked.2.1, ?_⟩
      rw [same item List.mem_cons_self]
      exact ih (fun item member => same item (List.mem_cons_of_mem _ member)) linked.2.2

/-- A family of stacks in which no item lies on two stacks or twice on one. -/
structure Stacks (Index Item : Type*) where
  stack : Index → List Item
  nodup : ∀ index, (stack index).Nodup
  disjoint : ∀ first second item, item ∈ stack first → item ∈ stack second → first = second

namespace Stacks

instance : Membership Item (Stacks Index Item) where
  mem family item := ∃ index, item ∈ family.stack index

def empty : Stacks Index Item :=
  ⟨fun _ => [], fun _ => List.nodup_nil, fun _ _ _ member _ => absurd member List.not_mem_nil⟩

variable [DecidableEq Index]

/-- A fresh item goes on top of one stack. -/
def push (family : Stacks Index Item) (index : Index) (item : Item) (fresh : item ∉ family) :
    Stacks Index Item where
  stack := Function.update family.stack index (item :: family.stack index)
  nodup other := by
    by_cases same : other = index
    · subst same
      rw [Function.update_self, List.nodup_cons]
      exact ⟨fun member => fresh ⟨_, member⟩, family.nodup _⟩
    · rw [Function.update_of_ne same]
      exact family.nodup other
  disjoint first second other := by
    intro left right
    have found (place : Index) (member : other ∈ Function.update family.stack index
        (item :: family.stack index) place) :
        (other = item ∧ place = index) ∨ (other ∈ family.stack place) := by
      by_cases same : place = index
      · subst same
        rw [Function.update_self, List.mem_cons] at member
        exact member.imp (fun top => ⟨top, rfl⟩) id
      · rw [Function.update_of_ne same] at member
        exact .inr member
    rcases found first left with top | old
    · rcases found second right with again | old
      · rw [top.2, again.2]
      · exact absurd ⟨second, top.1 ▸ old⟩ fresh
    · rcases found second right with top | again
      · exact absurd ⟨first, top.1 ▸ old⟩ fresh
      · exact family.disjoint first second other old again

/-- The top item of one stack goes away. -/
def pop (family : Stacks Index Item) (index : Index) : Stacks Index Item where
  stack := Function.update family.stack index (family.stack index).tail
  nodup other := by
    by_cases same : other = index
    · subst same
      rw [Function.update_self]
      exact (family.nodup _).tail
    · rw [Function.update_of_ne same]
      exact family.nodup other
  disjoint first second other := by
    intro left right
    have found (place : Index) (member : other ∈ Function.update family.stack index
        (family.stack index).tail place) : other ∈ family.stack place := by
      by_cases same : place = index
      · subst same
        rw [Function.update_self] at member
        exact List.mem_of_mem_tail member
      · rwa [Function.update_of_ne same] at member
    exact family.disjoint first second other (found first left) (found second right)

@[simp] theorem push_self (family : Stacks Index Item) (index : Index) (item : Item)
    (fresh : item ∉ family) :
    (family.push index item fresh).stack index = item :: family.stack index :=
  Function.update_self ..

theorem push_of_ne (family : Stacks Index Item) {index other : Index} (different : other ≠ index)
    (item : Item) (fresh : item ∉ family) :
    (family.push index item fresh).stack other = family.stack other :=
  Function.update_of_ne different ..

@[simp] theorem pop_self (family : Stacks Index Item) (index : Index) :
    (family.pop index).stack index = (family.stack index).tail :=
  Function.update_self ..

theorem pop_of_ne (family : Stacks Index Item) {index other : Index} (different : other ≠ index) :
    (family.pop index).stack other = family.stack other :=
  Function.update_of_ne different ..

theorem mem_stack_push (family : Stacks Index Item) {index place : Index} {item other : Item}
    (fresh : item ∉ family) : other ∈ (family.push index item fresh).stack place ↔
      other = item ∧ place = index ∨ other ∈ family.stack place := by
  by_cases same : place = index
  · subst same
    rw [push_self, List.mem_cons]
    simp
  · rw [push_of_ne _ same]
    simp [same]

theorem mem_push (family : Stacks Index Item) (index : Index) (item other : Item)
    (fresh : item ∉ family) :
    other ∈ family.push index item fresh ↔ other = item ∨ other ∈ family := by
  constructor
  · intro member
    obtain ⟨place, member⟩ := member
    by_cases same : place = index
    · subst same
      rw [push_self, List.mem_cons] at member
      exact member.imp id fun old => ⟨place, old⟩
    · rw [push_of_ne _ same] at member
      exact .inr ⟨place, member⟩
  · intro member
    rcases member with rfl | ⟨place, member⟩
    · exact ⟨index, by simp⟩
    · by_cases same : place = index
      · subst same
        exact ⟨place, by simp [member]⟩
      · exact ⟨place, by rwa [push_of_ne _ same]⟩

theorem mem_of_mem_pop (family : Stacks Index Item) {index place : Index} {item : Item}
    (member : item ∈ (family.pop index).stack place) : item ∈ family.stack place := by
  by_cases same : place = index
  · subst same
    rw [pop_self] at member
    exact List.mem_of_mem_tail member
  · rwa [pop_of_ne _ same] at member

/-- A pop removes exactly the top item from the family. -/
theorem mem_pop (family : Stacks Index Item) {index : Index} {top : Item} {rest : List Item}
    (shape : family.stack index = top :: rest) (other : Item) :
    other ∈ family.pop index ↔ other ∈ family ∧ other ≠ top := by
  have unique := family.nodup index
  rw [shape, List.nodup_cons] at unique
  constructor
  · intro member
    obtain ⟨place, member⟩ := member
    by_cases same : place = index
    · subst same
      rw [pop_self, shape, List.tail_cons] at member
      exact ⟨⟨place, by rw [shape]; exact List.mem_cons_of_mem _ member⟩,
        fun equal => unique.1 (equal ▸ member)⟩
    · rw [pop_of_ne _ same] at member
      exact ⟨⟨place, member⟩, fun equal => same
        (family.disjoint place index other member (by rw [shape, equal]; exact List.mem_cons_self))⟩
  · intro member
    obtain ⟨⟨place, member⟩, different⟩ := member
    by_cases same : place = index
    · subst same
      rw [shape] at member
      exact ⟨place, by
        rw [pop_self, shape]
        exact (List.mem_cons.1 member).resolve_left different⟩
    · exact ⟨place, by rwa [pop_of_ne _ same]⟩

end Stacks

end ComputerSystems.Library
