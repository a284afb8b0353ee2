import ComputerSystems.Library.Loop

namespace ComputerSystems.Library

variable {Pixel Place Color : Type*}

/-- The memory holds the color of each pixel of a region at the address of the pixel. -/
def Shows (memory : Place → Color) (address : Pixel → Place) (region : Set Pixel)
    (picture : Pixel → Color) : Prop :=
  ∀ pixel ∈ region, memory (address pixel) = picture pixel

/-- A drawing brings its pixels up to date and touches no place but theirs. -/
structure Paints (before after : Place → Color) (address : Pixel → Place) (drawn : Set Pixel)
    (picture : Pixel → Color) : Prop where
  shows : Shows after address drawn picture
  frame : ∀ place, (∀ pixel ∈ drawn, address pixel ≠ place) → after place = before place

namespace Shows

variable {memory before after : Place → Color} {address target : Pixel → Place}
variable {region kept drawn : Set Pixel} {picture other : Pixel → Color}

theorem empty (memory : Place → Color) (address : Pixel → Place) (picture : Pixel → Color) :
    Shows memory address ∅ picture :=
  fun _ member => absurd member (Set.notMem_empty _)

theorem mono (shows : Shows memory address region picture) (smaller : kept ⊆ region) :
    Shows memory address kept picture :=
  fun pixel member => shows pixel (smaller member)

/-- A picture may be exchanged for one that agrees on the region. -/
theorem congr (shows : Shows memory address region picture)
    (same : ∀ pixel ∈ region, other pixel = picture pixel) :
    Shows memory address region other :=
  fun pixel member => (shows pixel member).trans (same pixel member).symm

/-- A drawing completes a region when pixels of the region do not share places. -/
theorem paint (shows : Shows before address kept picture)
    (paints : Paints before after address drawn picture) (covers : region ⊆ kept ∪ drawn)
    (within : drawn ⊆ region) (injective : Set.InjOn address region) :
    Shows after address region picture := by
  intro pixel member
  by_cases fresh : pixel ∈ drawn
  · exact paints.shows pixel fresh
  · rw [paints.frame (address pixel) fun other painted same => fresh
      (injective (within painted) member same ▸ painted)]
    exact shows pixel ((covers member).resolve_right fresh)

/-- A move of the memory moves the picture. -/
theorem move (shows : Shows before address region picture)
    (moved : ∀ pixel ∈ region, after (target pixel) = before (address pixel)) :
    Shows after target region picture :=
  fun pixel member => (moved pixel member).trans (shows pixel member)

end Shows

namespace Paints

variable {before middle after : Place → Color} {address : Pixel → Place}
variable {drawn more : Set Pixel} {picture : Pixel → Color}

theorem refl (memory : Place → Color) (address : Pixel → Place) (picture : Pixel → Color) :
    Paints memory memory address ∅ picture :=
  ⟨.empty memory address picture, fun _ _ => rfl⟩

/-- Two drawings of one picture make one when the second spoils no pixel of the first. -/
theorem trans (first : Paints before middle address drawn picture)
    (second : Paints middle after address more picture)
    (injective : Set.InjOn address (drawn ∪ more)) :
    Paints before after address (drawn ∪ more) picture where
  shows := first.shows.paint second (Set.Subset.refl _) Set.subset_union_right injective
  frame place apart := by
    rw [second.frame place fun pixel member => apart pixel (.inr member),
      first.frame place fun pixel member => apart pixel (.inl member)]

/-- One store draws one pixel. -/
theorem single [DecidableEq Place] (memory : Place → Color) (address : Pixel → Place)
    (pixel : Pixel) (picture : Pixel → Color) :
    Paints memory (Function.update memory (address pixel) (picture pixel)) address {pixel}
      picture where
  shows other member := by
    rw [Set.mem_singleton_iff.1 member, Function.update_self]
  frame place apart := Function.update_of_ne (apart pixel rfl).symm ..

/-- A counted loop of drawings draws the union of their pixels. The memory may be a part of the
state of the loop. -/
theorem stateLoop {State : Type*} {body : Nat → State → State} (memory : State → Place → Color)
    {count : Nat} {part : Nat → Set Pixel} (state : State)
    (paints : ∀ done state, done < count →
      Paints (memory state) (memory (body done state)) address (part done) picture)
    (injective : Set.InjOn address (⋃ done < count, part done)) :
    Paints (memory state) (memory (Library.forLoop body 0 count state)) address
      (⋃ done < count, part done) picture := by
  induction count with
  | zero =>
      have nothing : ⋃ done < 0, part done = (∅ : Set Pixel) := by simp
      rw [nothing]
      exact refl (memory state) address picture
  | succ count ih =>
      have split : ⋃ done < count + 1, part done = (⋃ done < count, part done) ∪ part count :=
        Set.biUnion_lt_succ part count
      rw [split] at injective ⊢
      have earlier := ih (fun done state early => paints done state (by omega))
        (injective.mono Set.subset_union_left)
      rw [Library.forLoop, Nat.zero_add]
      exact earlier.trans (paints count _ (Nat.lt_succ_self count)) injective

theorem forLoop {body : Nat → (Place → Color) → Place → Color} {count : Nat}
    {part : Nat → Set Pixel} (memory : Place → Color)
    (paints : ∀ done memory, done < count →
      Paints memory (body done memory) address (part done) picture)
    (injective : Set.InjOn address (⋃ done < count, part done)) :
    Paints memory (Library.forLoop body 0 count memory) address (⋃ done < count, part done)
      picture :=
  stateLoop id memory paints injective

/-- A counted loop with a cursor draws the pixel at the cursor in each round. -/
theorem cursorLoop [DecidableEq Place] {Cursor : Type*}
    (body : Nat → (Place → Color) × Cursor → (Place → Color) × Cursor) {count : Nat}
    (cursor : Nat → Cursor) (pixel : Nat → Pixel) (memory : Place → Color)
    (rounds : ∀ done memory, done < count → body done (memory, cursor done) =
      (Function.update memory (address (pixel done)) (picture (pixel done)), cursor (done + 1)))
    (injective : Set.InjOn address (⋃ done < count, {pixel done})) :
    Paints memory (Library.forLoop body 0 count (memory, cursor 0)).1 address
      (⋃ done < count, {pixel done}) picture := by
  have stores : Library.forLoop body 0 count (memory, cursor 0) =
      (Library.forLoop (fun done memory =>
        Function.update memory (address (pixel done)) (picture (pixel done))) 0 count memory,
        cursor count) := by
    clear injective
    induction count with
    | zero => rfl
    | succ count ih =>
        rw [Library.forLoop, ih fun done memory early => rounds done memory (by omega),
          Nat.zero_add, rounds count _ (Nat.lt_succ_self count), Library.forLoop, Nat.zero_add]
  rw [stores]
  exact forLoop memory (fun done memory _ => single memory address (pixel done) picture) injective

end Paints

end ComputerSystems.Library
