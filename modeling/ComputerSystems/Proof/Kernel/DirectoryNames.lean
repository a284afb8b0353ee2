import ComputerSystems.Construction.Kernel.Syscalls
import ComputerSystems.Library.Field

namespace ComputerSystems.Kernel
open ComputerSystems.Library

/-- The full name of a directory entry has no terminator when it fills its field. -/
def Dentry.fullName (dentry : Dentry) : List UInt8 :=
  field (· == 0) dentry.filename filenameLen 0

theorem Dentry.fullName_length_le (dentry : Dentry) : dentry.fullName.length ≤ 32 :=
  field_length_le filenameLen 0

theorem Dentry.fullName_noTerminator (dentry : Dentry) : 0 ∉ dentry.fullName := by
  intro member
  exact Bool.true_eq_false_eq_False (field_running member)

theorem Dentry.fullName_eq_nil {dentry : Dentry} (first : dentry.filename 0 = 0) :
    dentry.fullName = [] := by
  apply List.length_eq_zero_iff.1
  apply field_length_eq (Nat.zero_le _)
  · exact fun _ impossible => absurd impossible (Nat.not_lt_zero _)
  · exact fun _ => beq_iff_eq.2 first

theorem int8_sub_eq_zero (first second : UInt8) :
    int8 first - int8 second = 0 ↔ first = second := by
  constructor
  · intro equal
    have bound := first.toNat_lt
    have other := second.toNat_lt
    apply UInt8.toNat_inj.1
    unfold int8 at equal
    split_ifs at equal <;> omega
  · rintro rfl
    exact Int.sub_self _

/-- The bounded comparison finds no difference exactly when both fields hold the same string. -/
theorem strncmp_eq_zero (first second : Nat → UInt8) (index count : Nat) :
    strncmp first second index count = 0 ↔
      field (· == 0) first count index = field (· == 0) second count index := by
  induction count generalizing index with
  | zero => exact ⟨fun _ => rfl, fun _ => rfl⟩
  | succ count ih =>
      simp only [strncmp, field, beq_iff_eq]
      by_cases same : first index = second index
      · rw [same]
        by_cases ended : second index = 0
        · simp [ended]
        · simp [ended, ih]
      · rw [if_pos (.inl same), int8_sub_eq_zero]
        split_ifs <;> simp_all

/-- The comparison of a string with an entry looks only at its first 32 bytes. -/
theorem strncmp_fullName (name : CString) (dentry : Dentry) :
    strncmp name.get dentry.filename 0 filenameLen = 0 ↔
      dentry.fullName = name.bytes.take filenameLen := by
  have running : ∀ value ∈ name.bytes, (value == 0) = false := by
    intro value member
    apply beq_false_of_ne
    rintro rfl
    exact name.noTerminator member
  have prefixed := field_getD name.bytes 0 rfl running filenameLen 0
  rw [List.drop_zero] at prefixed
  rw [strncmp_eq_zero, ← prefixed]
  exact eq_comm

theorem CString.get_zero (name : CString) : name.get 0 = 0 ↔ name.bytes = [] := by
  obtain ⟨bytes, noTerminator⟩ := name
  cases bytes with
  | nil => exact ⟨fun _ => rfl, fun _ => rfl⟩
  | cons first rest =>
      refine ⟨fun ended => absurd ?_ noTerminator, fun empty => by cases empty⟩
      change first = 0 at ended
      exact ended ▸ List.mem_cons_self

/-- A lookup takes the first entry whose full name is the string cut after 32 bytes. -/
theorem readDentryByName_eq_some (fs : FileSystem) (name : CString) (dentry : Dentry) :
    fs.readDentryByName (some name) = some dentry ↔
      name.bytes ≠ [] ∧ ∃ index < numFiles, dentry = fs.direntries index ∧
        (fs.direntries index).fullName = name.bytes.take filenameLen ∧
        ∀ earlier < index, (fs.direntries earlier).fullName ≠ name.bytes.take filenameLen := by
  unfold FileSystem.readDentryByName
  dsimp only
  by_cases empty : name.bytes = []
  · rw [if_pos ((name.get_zero).2 empty)]
    simp [empty]
  · rw [if_neg (mt (name.get_zero).1 empty), Option.map_eq_some_iff]
    constructor
    · rintro ⟨index, found, rfl⟩
      rw [List.find?_range_eq_some] at found
      obtain ⟨matched, member, earlier⟩ := found
      refine ⟨empty, index, List.mem_range.1 member, rfl, ?_, fun other before same => ?_⟩
      · exact (strncmp_fullName name _).1 (of_decide_eq_true matched)
      · have differs := earlier other before
        rw [decide_eq_true ((strncmp_fullName name _).2 same)] at differs
        exact Bool.false_ne_true differs
    · rintro ⟨_, index, below, rfl, matched, earlier⟩
      refine ⟨index, ?_, rfl⟩
      rw [List.find?_range_eq_some]
      refine ⟨decide_eq_true ((strncmp_fullName name _).2 matched), List.mem_range.2 below, ?_⟩
      intro other before
      rw [decide_eq_false (mt (strncmp_fullName name _).1 (earlier other before))]
      rfl

/-- The loop of `directory_read` copies exactly the full name. -/
theorem copyName_eq (dentry : Dentry) (buf : Nat → UInt8) :
    (copyName dentry.filename buf).position = dentry.fullName.length ∧
      ∀ place, (copyName dentry.filename buf).buf place =
        if place < dentry.fullName.length then dentry.filename place else buf place := by
  have copied := whileLoop_rule
    (fun state : NameState =>
      dentry.filename state.position != 0 && state.position < filenameLen)
    (fun state => ⟨state.position + 1,
      Function.update state.buf state.position (dentry.filename state.position)⟩)
    (fun state => state.position ≤ filenameLen ∧
      (∀ index < state.position, dentry.filename index ≠ 0) ∧
      ∀ place, state.buf place =
        if place < state.position then dentry.filename place else buf place)
    (fun state => filenameLen - state.position)
    (by
      intro state known running
      obtain ⟨_, before, stored⟩ := known
      rw [Bool.and_eq_true, bne_iff_ne, decide_eq_true_eq] at running
      refine ⟨⟨running.2, fun index inside => ?_, fun place => ?_⟩, by dsimp only; omega⟩
      · rcases Nat.lt_succ_iff_lt_or_eq.1 inside with earlier | rfl
        · exact before index earlier
        · exact running.1
      · dsimp only
        rw [Function.update_apply, stored place]
        by_cases here : place = state.position
        · rw [if_pos here, if_pos (by omega), here]
        · have earlier : place < state.position + 1 ↔ place < state.position := by omega
          simp only [if_neg here, earlier])
    filenameLen ⟨0, buf⟩
    ⟨Nat.zero_le _, fun _ inside => absurd inside (Nat.not_lt_zero _),
      fun place => (if_neg (Nat.not_lt_zero place)).symm⟩
    (Nat.le_refl _)
  obtain ⟨⟨short, running, stored⟩, stopped⟩ := copied
  rw [← copyName] at short running stored stopped
  have size : dentry.fullName.length = (copyName dentry.filename buf).position := by
    apply field_length_eq short
    · intro index inside
      rw [Nat.zero_add]
      exact beq_false_of_ne (running index inside)
    · intro inside
      rw [Bool.and_eq_false_iff] at stopped
      rcases stopped with ended | full
      · rw [Nat.zero_add]
        simpa using ended
      · exact absurd inside (of_decide_eq_false full)
  rw [size]
  exact ⟨rfl, stored⟩

theorem directoryRead_some {fs : FileSystem} {index : Fin 8} {fileArray : FileArray}
    {dentry : Dentry}
    (found : fs.readDentryByIndex (fileArray index).filePosition.toNat = some dentry)
    (bytes : Nat → UInt8) :
    ∃ buf after, directoryRead fs index bytes fileArray =
        ((dentry.fullName.length : Int), buf, after) ∧
      (∀ place, buf place = if place < dentry.fullName.length then dentry.filename place
        else if place = dentry.fullName.length then 0 else bytes place) ∧
      after = Function.update fileArray index { fileArray index with
        filePosition := (fileArray index).filePosition + 1 } := by
  obtain ⟨position, stored⟩ := copyName_eq dentry bytes
  refine ⟨Function.update (copyName dentry.filename bytes).buf dentry.fullName.length 0, _, ?_,
    fun place => ?_, rfl⟩
  · unfold directoryRead
    rw [found]
    dsimp only
    rw [position]
  · rw [Function.update_apply, stored place]
    split_ifs <;> first | rfl | omega

theorem directoryRead_none {fs : FileSystem} {index : Fin 8} {fileArray : FileArray}
    (found : fs.readDentryByIndex (fileArray index).filePosition.toNat = none)
    (bytes : Nat → UInt8) :
    directoryRead fs index bytes fileArray = (-1, bytes, fileArray) := by
  unfold directoryRead
  rw [found]

end ComputerSystems.Kernel
