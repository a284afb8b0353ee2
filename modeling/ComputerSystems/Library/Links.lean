import ComputerSystems.Library.Stacks

namespace ComputerSystems.Library

variable {Item : Type*} {next : Item → Item} {nil : Item}

namespace Links

instance decidable [DecidableEq Item] : (first : Item) → (list : List Item) →
    Decidable (Links next nil first list)
  | first, [] => inferInstanceAs (Decidable (first = nil))
  | first, item :: rest =>
      have := decidable (next item) rest
      inferInstanceAs (Decidable (first = item ∧ item ≠ nil ∧ Links next nil (next item) rest))

/-- The links determine the list. -/
theorem unique {first : Item} {list other : List Item} (linked : Links next nil first list)
    (again : Links next nil first other) : list = other := by
  induction list generalizing first other with
  | nil =>
      cases other with
      | nil => rfl
      | cons item rest => exact absurd (again.1.symm.trans linked) again.2.1
  | cons item rest ih =>
      cases other with
      | nil => exact absurd (linked.1.symm.trans again) linked.2.1
      | cons second others =>
          have same : item = second := linked.1.symm.trans again.1
          subst same
          rw [ih linked.2.2 again.2.2]

/-- The links from an item on the list spell the rest of the list. -/
theorem suffix {first item : Item} {front rest : List Item}
    (linked : Links next nil first (front ++ item :: rest)) :
    Links next nil item (item :: rest) := by
  induction front generalizing first with
  | nil =>
      have same : first = item := linked.1
      exact same ▸ linked
  | cons head front ih => exact ih linked.2.2

/-- A list that ends is free of cycles. -/
theorem nodup {first : Item} {list : List Item} (linked : Links next nil first list) :
    list.Nodup := by
  induction list generalizing first with
  | nil => exact List.nodup_nil
  | cons item rest ih =>
      refine List.nodup_cons.2 ⟨fun member => ?_, ih linked.2.2⟩
      obtain ⟨front, back, split⟩ := List.append_of_mem member
      have later : Links next nil item (item :: back) := suffix (split ▸ linked.2.2)
      have whole : Links next nil item (item :: rest) := ⟨rfl, linked.2.1, linked.2.2⟩
      have lengths := congrArg List.length (whole.unique later)
      rw [split] at lengths
      simp only [List.length_cons, List.length_append] at lengths
      omega

/-- An item with another one in front of it is not the first. -/
theorem first_ne {first previous item : Item} {front rest : List Item}
    (linked : Links next nil first (front ++ previous :: item :: rest)) : first ≠ item := by
  have unique := linked.nodup
  cases front with
  | nil =>
      rw [List.nil_append, List.nodup_cons] at unique
      intro same
      exact unique.1 (linked.1.symm.trans same ▸ List.mem_cons_self)
  | cons head front =>
      rw [List.cons_append, List.nodup_cons] at unique
      intro same
      refine unique.1 (linked.1.symm.trans same ▸ List.mem_append_right front ?_)
      exact List.mem_cons_of_mem previous List.mem_cons_self

variable [DecidableEq Item]

/-- A new item goes in front of the list. -/
theorem push {first item : Item} {list : List Item} (linked : Links next nil first list)
    (fresh : item ∉ list) (real : item ≠ nil) :
    Links (Function.update next item first) nil item (item :: list) := by
  refine ⟨rfl, real, ?_⟩
  rw [Function.update_self]
  refine linked.congr fun other member => Function.update_of_ne ?_ _ _
  intro same
  exact fresh (same ▸ member)

/-- An item goes away when the link in front of it skips it. -/
theorem skip {first previous item : Item} {front rest : List Item}
    (linked : Links next nil first (front ++ previous :: item :: rest)) :
    Links (Function.update next previous (next item)) nil first (front ++ previous :: rest) := by
  have unique := linked.nodup
  induction front generalizing first with
  | nil =>
      have tail : Links next nil (next item) rest := linked.2.2.2.2
      refine ⟨linked.1, linked.2.1, ?_⟩
      rw [Function.update_self]
      rw [List.nil_append, List.nodup_cons] at unique
      refine tail.congr fun other member => Function.update_of_ne ?_ _ _
      intro same
      exact unique.1 (List.mem_cons_of_mem item (same ▸ member))
  | cons head front ih =>
      rw [List.cons_append, List.nodup_cons] at unique
      have different : head ≠ previous := fun same =>
        unique.1 (same ▸ List.mem_append_right front List.mem_cons_self)
      refine ⟨linked.1, linked.2.1, ?_⟩
      rw [Function.update_of_ne different]
      exact ih linked.2.2 unique.2

/-- A skipped item goes back into the list. -/
theorem restore {first previous item : Item} {list : List Item} (real : item ≠ nil)
    (before : next previous = item)
    (linked : Links (Function.update next previous (next item)) nil first list) :
    ∃ whole, Links next nil first whole ∧ ∀ other ∈ whole, other ∈ list ∨ other = item := by
  induction list generalizing first with
  | nil => exact ⟨[], linked, fun _ member => absurd member List.not_mem_nil⟩
  | cons head rest ih =>
      obtain ⟨here, valid, later⟩ := linked
      obtain ⟨whole, linked, members⟩ := ih later
      by_cases same : head = previous
      · subst same
        rw [Function.update_self] at linked
        refine ⟨head :: item :: whole, ⟨here, valid, before, real, linked⟩, fun other member => ?_⟩
        rcases List.mem_cons.1 member with top | member
        · exact .inl (top ▸ List.mem_cons_self)
        · rcases List.mem_cons.1 member with skipped | old
          · exact .inr skipped
          · exact (members other old).imp_left (List.mem_cons_of_mem head)
      · rw [Function.update_of_ne same] at linked
        refine ⟨head :: whole, ⟨here, valid, linked⟩, fun other member => ?_⟩
        rcases List.mem_cons.1 member with top | old
        · exact .inl (top ▸ List.mem_cons_self)
        · exact (members other old).imp_left (List.mem_cons_of_mem head)

end Links

end ComputerSystems.Library
