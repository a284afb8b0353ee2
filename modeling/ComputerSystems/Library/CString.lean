import ComputerSystems.Library.Confined

namespace ComputerSystems.Library

/-- An array of characters with a log of its accesses. -/
abbrev Chars := Logged Nat UInt8

namespace Chars

/-- The bytes of a string in the source. -/
def ascii (text : String) : List UInt8 := text.toList.map fun char => UInt8.ofNat char.toNat

/-- An array that holds a text and its terminator. -/
def literal (text : List UInt8) : Chars := ⟨fun place => text.getD place 0, []⟩

/-- The text of a format goes to an array with its terminator. -/
def sprintf (text : List UInt8) (target : Chars) : Chars :=
  forLoop (fun place target => target.store place (text.getD place 0)) 0 (text.length + 1) target

/-- The place of the first terminator from a place on. -/
def strend : Nat → Nat → Chars → Option (Nat × Chars)
  | 0, _, _ => none
  | fuel + 1, place, chars =>
      let char := chars.load place
      if char.1 = 0 then some (place, char.2) else strend fuel (place + 1) char.2

/-- The characters up to a terminator go from one array to another. -/
def strcopy : Nat → Nat → Nat → Chars → Chars → Option (Chars × Chars)
  | 0, _, _, _, _ => none
  | fuel + 1, start, place, source, target =>
      let char := source.load start
      let stored := target.store place char.1
      if char.1 = 0 then some (char.2, stored)
      else strcopy fuel (start + 1) (place + 1) char.2 stored

def strcpy (fuel : Nat) (source target : Chars) : Option (Chars × Chars) :=
  strcopy fuel 0 0 source target

def strcat (fuel : Nat) (source target : Chars) : Option (Chars × Chars) :=
  match strend fuel 0 target with
  | none => none
  | some (stop, target) => strcopy fuel 0 stop source target

/-- The memory holds a text and its terminator from a place on. -/
def HasText (memory : Nat → UInt8) (start : Nat) (text : List UInt8) : Prop :=
  ∀ index ≤ text.length, memory (start + index) = text.getD index 0

variable {memory : Nat → UInt8} {start place fuel : Nat} {text : List UInt8}
variable {source target : Chars}

theorem HasText.tail {char : UInt8} (holds : HasText memory start (char :: text)) :
    HasText memory (start + 1) text := by
  intro index inside
  rw [Nat.add_assoc, Nat.add_comm 1, holds (index + 1) (by simpa using inside)]
  rfl

/-- All places of a text and its terminator are read. -/
structure Reads (start count : Nat) (before after : Chars) : Prop where
  memory : after.memory = before.memory
  touched : ∀ place, place ∈ after.touched ↔
    place ∈ before.touched ∨ start ≤ place ∧ place ≤ start + count

/-- A text and its terminator are written, and nothing before them changes. -/
structure Writes (place : Nat) (text : List UInt8) (before after : Chars) : Prop where
  holds : HasText after.memory place text
  kept : ∀ other < place, after.memory other = before.memory other
  touched : ∀ other, other ∈ after.touched ↔
    other ∈ before.touched ∨ place ≤ other ∧ other ≤ place + text.length

/-- The search finds the end of the text. -/
theorem strend_spec (holds : HasText source.memory start text) (clean : 0 ∉ text)
    (enough : text.length < fuel) :
    ∃ after, strend fuel start source = some (start + text.length, after) ∧
      Reads start text.length source after := by
  induction text generalizing fuel start source with
  | nil =>
      obtain ⟨fuel, rfl⟩ : ∃ less, fuel = less + 1 := ⟨fuel - 1, by omega⟩
      have zero : source.memory start = 0 := holds 0 le_rfl
      refine ⟨(source.load start).2, ?_, rfl, fun place => ?_⟩
      · rw [strend, Logged.load, if_pos zero]
        rfl
      · rw [Logged.load, List.mem_cons, List.length_nil]
        grind
  | cons char rest ih =>
      obtain ⟨fuel, rfl⟩ : ∃ less, fuel = less + 1 := ⟨fuel - 1, by omega⟩
      have first : source.memory start = char := holds 0 (Nat.zero_le _)
      have nonzero : char ≠ 0 := fun zero => clean (zero ▸ List.mem_cons_self)
      have tail : HasText (source.load start).2.memory (start + 1) rest := holds.tail
      obtain ⟨after, found, memory, touched⟩ :=
        ih tail (fun member => clean (List.mem_cons_of_mem char member))
          (Nat.lt_of_succ_lt_succ enough)
      refine ⟨after, ?_, memory, fun place => ?_⟩
      · rw [strend, Logged.load, if_neg (by rwa [first])]
        rw [Logged.load] at found
        rw [found, List.length_cons, Nat.add_assoc, Nat.add_comm 1]
      · rw [touched, Logged.load, List.mem_cons, List.length_cons]
        grind

/-- The copy brings the text and its terminator to the other array. -/
theorem strcopy_spec (holds : HasText source.memory start text) (clean : 0 ∉ text)
    (enough : text.length < fuel) :
    ∃ read written, strcopy fuel start place source target = some (read, written) ∧
      Reads start text.length source read ∧ Writes place text target written := by
  induction text generalizing fuel start place source target with
  | nil =>
      obtain ⟨fuel, rfl⟩ : ∃ less, fuel = less + 1 := ⟨fuel - 1, by omega⟩
      have zero : source.memory start = 0 := holds 0 le_rfl
      refine ⟨(source.load start).2, target.store place (source.memory start), ?_,
        ⟨rfl, fun other => ?_⟩, fun index inside => ?_, fun other low => ?_, fun other => ?_⟩
      · rw [strcopy, Logged.load, if_pos zero]
      · rw [Logged.load, List.mem_cons, List.length_nil]
        grind
      · obtain rfl : index = 0 := Nat.le_zero.1 inside
        exact (Function.update_self ..).trans zero
      · exact Function.update_of_ne low.ne _ _
      · rw [Logged.store, List.mem_cons, List.length_nil]
        grind
  | cons char rest ih =>
      obtain ⟨fuel, rfl⟩ : ∃ less, fuel = less + 1 := ⟨fuel - 1, by omega⟩
      have first : source.memory start = char := holds 0 (Nat.zero_le _)
      have nonzero : char ≠ 0 := fun zero => clean (zero ▸ List.mem_cons_self)
      have tail : HasText (source.load start).2.memory (start + 1) rest := holds.tail
      obtain ⟨read, written, copied, ⟨memory, touched⟩, ⟨stored, kept, wrote⟩⟩ :=
        @ih (start + 1) (place + 1) fuel (source.load start).2 (target.store place char) tail
          (fun member => clean (List.mem_cons_of_mem char member)) (Nat.lt_of_succ_lt_succ enough)
      refine ⟨read, written, ?_, ⟨memory, fun other => ?_⟩, fun index inside => ?_,
        fun other low => ?_, fun other => ?_⟩
      · rw [strcopy, Logged.load, if_neg (by rwa [first])]
        dsimp only
        rw [first]
        exact copied
      · rw [touched, Logged.load, List.mem_cons, List.length_cons]
        grind
      · cases index with
        | zero =>
            exact (kept place (Nat.lt_succ_self place)).trans (Function.update_self ..)
        | succ index =>
            rw [← Nat.add_assoc, Nat.add_right_comm, stored index (by simpa using inside)]
            rfl
      · rw [kept other (by omega), Logged.store]
        exact Function.update_of_ne low.ne _ _
      · rw [wrote, Logged.store, List.mem_cons, List.length_cons]
        grind

/-- An array is used for exactly one text and its terminator. -/
structure Holds (text : List UInt8) (chars : Chars) : Prop where
  stored : HasText chars.memory 0 text
  clean : 0 ∉ text
  touched : ∀ place, place ∈ chars.touched ↔ place ≤ text.length

/-- All accesses of the array are below a size exactly when the text with its terminator fits. -/
theorem Holds.below_iff (holds : Holds text source) (size : Nat) :
    (∀ place ∈ source.touched, place < size) ↔ text.length < size := by
  constructor
  · exact fun below => below text.length ((holds.touched _).2 le_rfl)
  · exact fun fits place member => ((holds.touched place).1 member).trans_lt fits

/-- A read of the text does not change what the array is used for. -/
theorem Holds.reads {after : Chars} (holds : Holds text source)
    (reads : Reads 0 text.length source after) : Holds text after := by
  refine ⟨by rw [reads.memory]; exact holds.stored, holds.clean, fun place => ?_⟩
  rw [reads.touched, holds.touched]
  omega

theorem sprintf_holds (unset : Nat → UInt8) (clean : 0 ∉ text) :
    Holds text (sprintf text ⟨unset, []⟩) := by
  have stored : (∀ index < text.length + 1,
        (sprintf text ⟨unset, []⟩).memory index = text.getD index 0) ∧
      ∀ place, place ∈ (sprintf text ⟨unset, []⟩).touched ↔ place < text.length + 1 := by
    apply forLoop_rule fun done (current : Chars) =>
      (∀ index < done, current.memory index = text.getD index 0) ∧
        ∀ place, place ∈ current.touched ↔ place < done
    · simp
    · intro done current _ before
      refine ⟨fun index early => ?_, fun place => ?_⟩
      · rw [Nat.zero_add]
        change Function.update current.memory done (text.getD done 0) index = _
        rw [Function.update_apply]
        split_ifs with here
        · rw [here]
        · exact before.1 index (by omega)
      · rw [Nat.zero_add, Logged.store, List.mem_cons, before.2]
        omega
  refine ⟨fun index inside => ?_, clean, fun place => ?_⟩
  · rw [Nat.zero_add]
    exact stored.1 index (by omega)
  · rw [stored.2]
    omega

theorem literal_hasText (text : List UInt8) : HasText (literal text).memory 0 text := by
  intro index _
  rw [Nat.zero_add]
  rfl

theorem strcpy_holds (fuel : Nat) (unset : Nat → UInt8) (clean : 0 ∉ text)
    (enough : text.length < fuel) :
    ∃ read written, strcpy fuel (literal text) ⟨unset, []⟩ = some (read, written) ∧
      Holds text written := by
  obtain ⟨read, written, copied, _, ⟨stored, _, touched⟩⟩ :=
    @strcopy_spec 0 0 fuel text (literal text) ⟨unset, []⟩ (literal_hasText text) clean enough
  refine ⟨read, written, copied, stored, clean, fun place => ?_⟩
  rw [touched]
  simp

/-- The concatenation appends the text of the source. -/
theorem Holds.strcat {front : List UInt8} (holds : Holds front target) (fuel : Nat)
    (stored : HasText source.memory 0 text) (clean : 0 ∉ text) (enough : front.length < fuel)
    (more : text.length < fuel) :
    ∃ read written, strcat fuel source target = some (read, written) ∧
      Reads 0 text.length source read ∧ Holds (front ++ text) written := by
  obtain ⟨scanned, found, memory, reached⟩ := strend_spec holds.stored holds.clean enough
  obtain ⟨read, written, copied, reads, ⟨appended, kept, wrote⟩⟩ :=
    @strcopy_spec 0 (0 + front.length) fuel text source scanned stored clean more
  refine ⟨read, written, ?_, reads, fun index inside => ?_, ?_, fun place => ?_⟩
  · rw [Chars.strcat, found]
    exact copied
  · rw [List.length_append] at inside
    rw [Nat.zero_add] at kept appended ⊢
    by_cases early : index < front.length
    · have before := holds.stored index early.le
      rw [Nat.zero_add] at before
      rw [kept index early, memory, before, List.getD_eq_getElem?_getD, List.getD_eq_getElem?_getD,
        List.getElem?_append_left early]
    · obtain ⟨rest, rfl⟩ := Nat.exists_eq_add_of_le (not_lt.1 early)
      rw [appended rest (by omega), List.getD_eq_getElem?_getD, List.getD_eq_getElem?_getD,
        List.getElem?_append_right (Nat.le_add_right ..), Nat.add_sub_cancel_left]
  · rw [List.mem_append]
    exact fun member => member.elim holds.clean clean
  · rw [wrote, reached, holds.touched, List.length_append]
    omega

end Chars

end ComputerSystems.Library
