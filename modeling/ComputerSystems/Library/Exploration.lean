import Mathlib.Tactic

namespace ComputerSystems.Library

variable {Node : Type*} {edge more : Node → Node → Prop} {fresh : Set Node} {start : Node}

/-- A path from one node to another through fresh nodes. -/
def Joined (edge : Node → Node → Prop) (fresh : Set Node) : Node → Node → Prop :=
  Relation.ReflTransGen fun node next => edge node next ∧ next ∈ fresh

/-- A path out of a set leaves it at some edge. -/
theorem exists_leaving {nodes : Set Node} {node : Node} (path : Joined edge fresh start node)
    (inside : start ∈ nodes) (outside : node ∉ nodes) :
    ∃ near far, (edge near far ∧ far ∈ fresh) ∧ near ∈ nodes ∧ far ∉ nodes := by
  induction path with
  | refl => exact absurd inside outside
  | @tail near far _ step ih =>
      by_cases known : near ∈ nodes
      · exact ⟨near, far, step, known, outside⟩
      · exact ih known

/-- A search with a queue has found the nodes that it explored and those that wait. It finds each
node once, and the neighbours of an explored node are found. -/
structure Exploring (edge : Node → Node → Prop) (fresh : Set Node) (start : Node)
    (explored queue : List Node) : Prop where
  distinct : (explored ++ queue).Nodup
  started : start ∈ explored ++ queue
  joined : ∀ node ∈ explored ++ queue, Joined edge fresh start node
  closed : ∀ node ∈ explored, ∀ next, edge node next → next ∈ fresh → next ∈ explored ++ queue

namespace Exploring

variable {explored queue : List Node}

theorem begin (edge : Node → Node → Prop) (fresh : Set Node) (start : Node) :
    Exploring edge fresh start [] [start] where
  distinct := List.nodup_singleton start
  started := List.mem_singleton_self start
  joined node member := by
    rw [List.mem_singleton.1 member]
    exact .refl
  closed node member := absurd member List.not_mem_nil

/-- A fresh neighbour that is not found yet enters the queue. -/
theorem find (exploring : Exploring edge fresh start explored queue) {node next : Node}
    (found : node ∈ explored ++ queue) (neighbour : edge node next) (clear : next ∈ fresh)
    (absent : next ∉ explored ++ queue) :
    Exploring edge fresh start explored (queue ++ [next]) := by
  have whole : explored ++ (queue ++ [next]) = explored ++ queue ++ [next] :=
    (List.append_assoc ..).symm
  refine ⟨?_, ?_, fun other member => ?_, fun other member third edge clear => ?_⟩
  · rw [whole, ← List.concat_eq_append]
    exact exploring.distinct.concat absent
  · rw [whole]
    exact List.mem_append_left _ exploring.started
  · rw [whole] at member
    rcases List.mem_append.1 member with old | new
    · exact exploring.joined other old
    · rw [List.mem_singleton.1 new]
      exact (exploring.joined node found).tail ⟨neighbour, clear⟩
  · rw [whole]
    exact List.mem_append_left _ (exploring.closed other member third edge clear)

/-- A node is explored when its fresh neighbours are found. -/
theorem finish {node : Node} (exploring : Exploring edge fresh start explored (node :: queue))
    (found : ∀ next, edge node next → next ∈ fresh → next ∈ explored ++ node :: queue) :
    Exploring edge fresh start (explored ++ [node]) queue := by
  have whole : explored ++ [node] ++ queue = explored ++ node :: queue :=
    List.append_cons .. |>.symm
  refine ⟨?_, ?_, fun other member => ?_, fun other member next edge clear => ?_⟩
  · rw [whole]
    exact exploring.distinct
  · rw [whole]
    exact exploring.started
  · rw [whole] at member
    exact exploring.joined other member
  · rw [whole]
    rcases List.mem_append.1 member with old | last
    · exact exploring.closed other old next edge clear
    · rw [List.mem_singleton.1 last] at edge
      exact found next edge clear

/-- With an empty queue the search has found all nodes that are joined to its start. -/
theorem mem_iff (exploring : Exploring edge fresh start explored []) (node : Node) :
    node ∈ explored ↔ Joined edge fresh start node := by
  have started := exploring.started
  have closed := exploring.closed
  have joined := exploring.joined node
  rw [List.append_nil] at started closed joined
  refine ⟨joined, fun path => ?_⟩
  induction path with
  | refl => exact started
  | tail _ step ih =>
      exact closed _ (ih fun member => exploring.joined _ (by rwa [List.append_nil])) _ step.1
        step.2

/-- All nodes that are found lie in a finite set when the fresh ones do. -/
theorem length_le (exploring : Exploring edge fresh start explored queue) (nodes : Finset Node)
    (first : start ∈ nodes) (bounded : ∀ node next, edge node next → next ∈ nodes) :
    (explored ++ queue).length ≤ nodes.card := by
  classical
  rw [← List.toFinset_card_of_nodup exploring.distinct]
  refine Finset.card_le_card fun node member => ?_
  rcases (exploring.joined node (List.mem_toFinset.1 member)).cases_tail with same | ⟨_, _, step⟩
  · rwa [same]
  · exact bounded _ _ step.1

end Exploring

/-- A new edge out of a component adds what is joined to its far end outside of the component. -/
theorem component_grows {old : Set Node} {root near far : Node}
    (component : ∀ node, node ∈ old ↔ Relation.ReflTransGen edge root node)
    (grows : ∀ node next, edge node next → more node next)
    (only : ∀ node next, more node next →
      edge node next ∨ (node = near ∧ next = far) ∨ (node = far ∧ next = near))
    (inside : near ∈ old) (link : more near far) (node : Node) :
    Relation.ReflTransGen more root node ↔ node ∈ old ∨ Joined more oldᶜ far node := by
  have larger {node : Node} (member : node ∈ old) : Relation.ReflTransGen more root node :=
    Relation.ReflTransGen.mono grows _ _ ((component node).1 member)
  constructor
  · intro path
    induction path with
    | refl => exact .inl ((component root).2 .refl)
    | @tail node next _ step ih =>
        by_cases known : next ∈ old
        · exact .inl known
        · rcases ih with inner | outer
          · rcases only node next step with before | ⟨_, rfl⟩ | ⟨_, rfl⟩
            · exact absurd ((component next).2 (((component node).1 inner).tail before)) known
            · exact .inr .refl
            · exact absurd inside known
          · exact .inr (outer.tail ⟨step, known⟩)
  · rintro (inner | outer)
    · exact larger inner
    · refine ((larger inside).tail link).trans ?_
      exact Relation.ReflTransGen.mono (fun _ _ step => step.1) _ _ outer

end ComputerSystems.Library
