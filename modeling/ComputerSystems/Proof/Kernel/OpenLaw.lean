import ComputerSystems.Construction.Kernel.Syscalls

namespace ComputerSystems.Kernel

/-- The descriptors that `file_open` may still hand out. -/
def freeSlots (fileArray : FileArray) : Finset (Fin 8) :=
  Finset.univ.filter fun index => 2 ≤ index ∧ (fileArray index).flags = .fileAvail

theorem mem_freeSlots (fileArray : FileArray) (index : Fin 8) :
    index ∈ freeSlots fileArray ↔ 2 ≤ index ∧ (fileArray index).flags = .fileAvail := by
  simp [freeSlots]

theorem firstAvail_eq_some (fileArray : FileArray) (index : Fin 8) :
    firstAvail fileArray = some index ↔
      index ∈ freeSlots fileArray ∧ ∀ lower < index, lower ∉ freeSlots fileArray := by
  simp only [firstAvail, Fin.find?_eq_some_iff, mem_freeSlots, decide_eq_true_eq,
    decide_eq_false_iff_not]

theorem firstAvail_eq_none (fileArray : FileArray) :
    firstAvail fileArray = none ↔ freeSlots fileArray = ∅ := by
  simp only [firstAvail, Fin.find?_eq_none_iff, Finset.eq_empty_iff_forall_notMem, mem_freeSlots,
    decide_eq_false_iff_not]

/-- An occupied entry leaves the set of free descriptors, and no other entry does. -/
theorem freeSlots_update (fileArray : FileArray) (index : Fin 8) (entry : FileT)
    (occupied : entry.flags = .fileOccup) :
    freeSlots (Function.update fileArray index entry) = (freeSlots fileArray).erase index := by
  ext other
  rw [Finset.mem_erase, mem_freeSlots, mem_freeSlots]
  by_cases same : other = index
  · subst same
    simp [occupied]
  · simp [same]

/-- The table after initialization has six free descriptors. -/
theorem freeSlots_initFileArray : (freeSlots (initFileArray blank)).card = 6 := by
  decide

/-- The entry that an open of this directory entry should make. -/
def openedEntry (dentry : Dentry) : FileT :=
  if dentry.filetype = 0 then ⟨.rtcOps, BitVec.ofNat 32 dentry.inodeNum, 2, .fileOccup⟩
  else if dentry.filetype = 1 then
    ⟨.directoryOps, BitVec.ofNat 32 dentry.inodeNum, 0, .fileOccup⟩
  else ⟨.fileOps, BitVec.ofNat 32 dentry.inodeNum, 0, .fileOccup⟩

theorem openedEntry_flags (dentry : Dentry) : (openedEntry dentry).flags = .fileOccup := by
  unfold openedEntry
  split_ifs <;> rfl

/-- An allocation takes the lowest free descriptor for one directory entry. -/
def allocate (dentry : Dentry) (fileArray : FileArray) : Int × FileArray :=
  match firstAvail fileArray with
  | none => (-1, fileArray)
  | some index => (index.val, Function.update fileArray index (openedEntry dentry))

theorem allocate_full (dentry : Dentry) (fileArray : FileArray)
    (full : freeSlots fileArray = ∅) : allocate dentry fileArray = (-1, fileArray) := by
  unfold allocate
  rw [(firstAvail_eq_none fileArray).2 full]

/-- With a free descriptor the allocation succeeds and uses up exactly one. -/
theorem allocate_free (dentry : Dentry) (fileArray : FileArray)
    (free : (freeSlots fileArray).Nonempty) :
    ∃ index, firstAvail fileArray = some index ∧ index ∈ freeSlots fileArray ∧
      allocate dentry fileArray =
        ((index.val : Int), Function.update fileArray index (openedEntry dentry)) ∧
      freeSlots (allocate dentry fileArray).2 = (freeSlots fileArray).erase index := by
  cases found : firstAvail fileArray with
  | none =>
      rw [firstAvail_eq_none] at found
      rw [found] at free
      exact absurd free Finset.not_nonempty_empty
  | some index =>
      have allocated : allocate dentry fileArray =
          ((index.val : Int), Function.update fileArray index (openedEntry dentry)) := by
        unfold allocate
        rw [found]
      have lowest := (firstAvail_eq_some fileArray index).1 found
      have remaining := freeSlots_update fileArray index _ (openedEntry_flags dentry)
      exact ⟨index, rfl, lowest.1, allocated, by rw [allocated, remaining]⟩

/-- The name is short enough and resolves to an entry of one of the three types. -/
structure Openable (fs : FileSystem) (filename : Option CString) (dentry : Dentry) : Prop where
  short : ∃ name, filename = some name ∧ name.bytes.length ≤ 32
  resolves : fs.readDentryByName filename = some dentry
  known : dentry.filetype ≤ 2

theorem fileOpen_openable {fs : FileSystem} {filename : Option CString} {dentry : Dentry}
    (opens : Openable fs filename dentry) (fileArray : FileArray) :
    fileOpen fs filename fileArray = allocate dentry fileArray := by
  obtain ⟨name, rfl, short⟩ := opens.short
  have notLong : ¬ 33 ≤ name.bytes.length := by omega
  have known := opens.known
  unfold fileOpen allocate
  simp only [if_neg notLong, opens.resolves]
  cases firstAvail fileArray with
  | none => rfl
  | some index =>
      interval_cases kind : dentry.filetype <;> simp [openedEntry, kind, rtcOpen]

/-- Every rejected name leaves the table as it is. -/
theorem fileOpen_rejected {fs : FileSystem} {filename : Option CString}
    (rejected : ∀ dentry, ¬ Openable fs filename dentry) (fileArray : FileArray) :
    fileOpen fs filename fileArray = (-1, fileArray) := by
  unfold fileOpen
  cases filename with
  | none => rfl
  | some name =>
      by_cases long : 33 ≤ name.bytes.length
      · exact if_pos long
      · simp only [if_neg long]
        cases resolves : fs.readDentryByName (some name) with
        | none => rfl
        | some dentry =>
            have unknown : ¬ dentry.filetype ≤ 2 := fun known =>
              rejected dentry ⟨⟨name, rfl, by omega⟩, resolves, known⟩
            cases firstAvail fileArray with
            | none => rfl
            | some index =>
                simp [show dentry.filetype ≠ 2 by omega, show dentry.filetype ≠ 1 by omega,
                  show dentry.filetype ≠ 0 by omega]

/-- A device is opened twice, and every other type once. -/
theorem sysOpen_openable {fs : FileSystem} {filename : Option CString} {dentry : Dentry}
    (opens : Openable fs filename dentry) (fileArray : FileArray) :
    sysOpen fs filename fileArray =
      if dentry.filetype = 0 then
        if (allocate dentry fileArray).1 = -1 then (-1, (allocate dentry fileArray).2)
        else allocate dentry (allocate dentry fileArray).2
      else allocate dentry fileArray := by
  have known := opens.known
  unfold sysOpen directoryOpen
  simp only [opens.resolves, fileOpen_openable opens]
  interval_cases kind : dentry.filetype <;> simp

theorem sysOpen_rejected {fs : FileSystem} {filename : Option CString}
    (rejected : ∀ dentry, ¬ Openable fs filename dentry) (fileArray : FileArray) :
    sysOpen fs filename fileArray = (-1, fileArray) := by
  unfold sysOpen directoryOpen
  simp only [fileOpen_rejected rejected]
  cases fs.readDentryByName filename with
  | none => rfl
  | some dentry =>
      dsimp only
      split_ifs <;> rfl

/-- One open allocates exactly the lowest free descriptor or changes nothing. -/
def OpenLaw (fs : FileSystem) (filename : Option CString) (fileArray : FileArray) : Prop :=
  let opened := sysOpen fs filename fileArray
  (0 ≤ opened.1 → ∃ index dentry, opened.1 = index.val ∧
    (2 ≤ index ∧ (fileArray index).flags = .fileAvail) ∧
    (∀ lower : Fin 8, 2 ≤ lower → lower < index → (fileArray lower).flags ≠ .fileAvail) ∧
    fs.readDentryByName filename = some dentry ∧
    opened.2 = Function.update fileArray index (openedEntry dentry)) ∧
  (opened.1 = -1 → opened.2 = fileArray)

/-- The condition under which an open makes a second descriptor. -/
def OpensDevice (fs : FileSystem) (filename : Option CString) : Prop :=
  ∃ dentry, Openable fs filename dentry ∧ dentry.filetype = 0

theorem openLaw_of_allocate {fs : FileSystem} {filename : Option CString} {dentry : Dentry}
    (opens : Openable fs filename dentry) (fileArray : FileArray)
    (once : sysOpen fs filename fileArray = allocate dentry fileArray) :
    OpenLaw fs filename fileArray := by
  unfold OpenLaw
  rw [once]
  rcases (freeSlots fileArray).eq_empty_or_nonempty with full | free
  · rw [allocate_full dentry fileArray full]
    exact ⟨fun success => absurd success (by simp), fun _ => rfl⟩
  · obtain ⟨index, found, member, allocated, _⟩ := allocate_free dentry fileArray free
    have lowest := ((firstAvail_eq_some fileArray index).1 found).2
    rw [allocated]
    constructor
    · intro _
      exact ⟨index, dentry, rfl, (mem_freeSlots fileArray index).1 member,
        fun lower large below free =>
          lowest lower below ((mem_freeSlots fileArray lower).2 ⟨large, free⟩),
        opens.resolves, rfl⟩
    · intro failed
      exact absurd failed (by dsimp only; omega)

/-- The second allocation for a device breaks the law whenever the first one succeeds. -/
theorem not_openLaw_device {fs : FileSystem} {filename : Option CString}
    (device : OpensDevice fs filename) (fileArray : FileArray)
    (free : (freeSlots fileArray).Nonempty) : ¬ OpenLaw fs filename fileArray := by
  obtain ⟨dentry, opens, kind⟩ := device
  obtain ⟨first, _, member, created, remaining⟩ := allocate_free dentry fileArray free
  have opened : sysOpen fs filename fileArray =
      allocate dentry (allocate dentry fileArray).2 := by
    rw [sysOpen_openable opens, if_pos kind, if_neg (by rw [created]; dsimp only; omega)]
  have firstFree := (mem_freeSlots fileArray first).1 member
  unfold OpenLaw
  rw [opened]
  intro law
  rcases (freeSlots (allocate dentry fileArray).2).eq_empty_or_nonempty with full | free
  · rw [allocate_full dentry _ full, created] at law
    have same : Function.update fileArray first (openedEntry dentry) = fileArray := law.2 rfl
    have kept := congrArg FileT.flags (congrFun same first)
    rw [Function.update_self, openedEntry_flags, firstFree.2] at kept
    exact FileFlags.noConfusion kept
  · obtain ⟨second, _, other, allocated, _⟩ := allocate_free dentry _ free
    rw [remaining, Finset.mem_erase] at other
    rw [allocated, created] at law
    have success : (0 : Int) ≤ second.val := Int.natCast_nonneg _
    obtain ⟨index, changed, returned, _, _, _, final⟩ := law.1 success
    have returnedSecond : (second.val : Int) = index.val := returned
    have indexSecond : second = index := Fin.ext (by exact_mod_cast returnedSecond)
    subst indexSecond
    change Function.update (Function.update fileArray first (openedEntry dentry)) second
      (openedEntry dentry) = Function.update fileArray second (openedEntry changed) at final
    have stray := congrArg FileT.flags (congrFun final first)
    rw [Function.update_of_ne (Ne.symm other.1), Function.update_self,
      Function.update_of_ne (Ne.symm other.1), openedEntry_flags, firstFree.2] at stray
    exact FileFlags.noConfusion stray

/-- The number of successes among `count` opens of one name without a close. -/
def openTimes (fs : FileSystem) (filename : Option CString) : Nat → FileArray → Nat
  | 0, _ => 0
  | count + 1, fileArray =>
      let opened := sysOpen fs filename fileArray
      (if 0 ≤ opened.1 then 1 else 0) + openTimes fs filename count opened.2

/-- Each successful open of a device uses up two descriptors. -/
def descriptorsUsed (dentry : Dentry) : Nat := if dentry.filetype = 0 then 2 else 1

theorem openTimes_full {fs : FileSystem} {filename : Option CString} {dentry : Dentry}
    (opens : Openable fs filename dentry) (count : Nat) (fileArray : FileArray)
    (full : freeSlots fileArray = ∅) : openTimes fs filename count fileArray = 0 := by
  have failed : sysOpen fs filename fileArray = (-1, fileArray) := by
    rw [sysOpen_openable opens]
    simp [allocate_full dentry fileArray full]
  induction count with
  | zero => rfl
  | succ count ih => simp [openTimes, failed, ih]

/-- A successful open reduces the free descriptors by what its type uses. -/
theorem sysOpen_success {fs : FileSystem} {filename : Option CString} {dentry : Dentry}
    (opens : Openable fs filename dentry) (fileArray : FileArray)
    (free : descriptorsUsed dentry ≤ (freeSlots fileArray).card) :
    0 ≤ (sysOpen fs filename fileArray).1 ∧
      (freeSlots (sysOpen fs filename fileArray).2).card + descriptorsUsed dentry =
        (freeSlots fileArray).card := by
  have some : 0 < (freeSlots fileArray).card := by
    unfold descriptorsUsed at free
    split_ifs at free <;> omega
  obtain ⟨first, _, member, created, remaining⟩ :=
    allocate_free dentry fileArray (Finset.card_pos.1 some)
  have left := Finset.card_erase_add_one member
  rw [sysOpen_openable opens]
  by_cases kind : dentry.filetype = 0
  · rw [if_pos kind, if_neg (by rw [created]; dsimp only; omega)]
    rw [descriptorsUsed, if_pos kind] at free ⊢
    obtain ⟨second, _, other, allocated, final⟩ := allocate_free dentry
      (allocate dentry fileArray).2 (Finset.card_pos.1 (by rw [remaining]; omega))
    have next := Finset.card_erase_add_one other
    rw [remaining] at next
    rw [final, allocated, remaining]
    exact ⟨by dsimp only; omega, by omega⟩
  · rw [if_neg kind, descriptorsUsed, if_neg kind, remaining, created]
    exact ⟨by dsimp only; omega, left⟩

/-- The open count is limited by the free descriptors that each success uses. -/
theorem openTimes_eq {fs : FileSystem} {filename : Option CString} {dentry : Dentry}
    (opens : Openable fs filename dentry) (count : Nat) (fileArray : FileArray)
    (exactly : descriptorsUsed dentry ∣ (freeSlots fileArray).card) :
    openTimes fs filename count fileArray =
      min count ((freeSlots fileArray).card / descriptorsUsed dentry) := by
  have positive : 0 < descriptorsUsed dentry := by
    unfold descriptorsUsed
    split_ifs <;> omega
  induction count generalizing fileArray with
  | zero => simp [openTimes]
  | succ count ih =>
      by_cases free : descriptorsUsed dentry ≤ (freeSlots fileArray).card
      · have success := sysOpen_success opens fileArray free
        have rest := ih (sysOpen fs filename fileArray).2
          ((Nat.dvd_add_left (dvd_refl _)).1 (success.2 ▸ exactly))
        rw [openTimes, if_pos success.1, rest, ← success.2, Nat.add_div_right _ positive]
        omega
      · have none : (freeSlots fileArray).card = 0 :=
          Nat.eq_zero_of_dvd_of_lt exactly (Nat.lt_of_not_le free)
        rw [openTimes_full opens _ _ (Finset.card_eq_zero.1 none), none]
        simp

/-- Every short name of a known type opens six times on an empty table. -/
def OpenCount (fs : FileSystem) (filename : Option CString) (count : Nat) : Prop :=
  ∀ dentry, Openable fs filename dentry →
    openTimes fs filename count (initFileArray blank) = min count 6

/-- The law fails exactly for a device with a free descriptor, and the count fails exactly for
more than three opens of a device. -/
theorem openLaw_iff (fs : FileSystem) (filename : Option CString) (fileArray : FileArray)
    (count : Nat) :
    (OpenLaw fs filename fileArray ↔
      ¬ (OpensDevice fs filename ∧ firstAvail fileArray ≠ none)) ∧
    (OpenCount fs filename count ↔ ¬ (OpensDevice fs filename ∧ 3 < count)) := by
  constructor
  · constructor
    · intro law broken
      have free := Finset.nonempty_iff_ne_empty.2
        fun full => broken.2 ((firstAvail_eq_none fileArray).2 full)
      exact not_openLaw_device broken.1 fileArray free law
    · intro sound
      by_cases openable : ∃ dentry, Openable fs filename dentry
      · obtain ⟨dentry, opens⟩ := openable
        apply openLaw_of_allocate opens
        rw [sysOpen_openable opens]
        split_ifs with kind failed
        · have full : freeSlots fileArray = ∅ := by
            by_contra free
            exact sound ⟨⟨dentry, opens, kind⟩,
              fun none => free ((firstAvail_eq_none fileArray).1 none)⟩
          rw [allocate_full dentry fileArray full]
        · have full : freeSlots fileArray = ∅ := by
            by_contra free
            exact sound ⟨⟨dentry, opens, kind⟩,
              fun none => free ((firstAvail_eq_none fileArray).1 none)⟩
          exact absurd (by rw [allocate_full dentry fileArray full]) failed
        · rfl
      · unfold OpenLaw
        rw [sysOpen_rejected (fun dentry opens => openable ⟨dentry, opens⟩)]
        exact ⟨fun success => absurd success (by simp), fun _ => rfl⟩
  · constructor
    · intro law broken
      obtain ⟨⟨dentry, opens, kind⟩, many⟩ := broken
      have counted := law dentry opens
      have used : descriptorsUsed dentry = 2 := if_pos kind
      rw [openTimes_eq opens _ _ (by rw [freeSlots_initFileArray, used]; decide),
        freeSlots_initFileArray, used] at counted
      omega
    · intro sound dentry opens
      unfold OpensDevice at sound
      by_cases kind : dentry.filetype = 0
      · have used : descriptorsUsed dentry = 2 := if_pos kind
        have few : ¬ 3 < count := fun many => sound ⟨⟨dentry, opens, kind⟩, many⟩
        rw [openTimes_eq opens _ _ (by rw [freeSlots_initFileArray, used]; decide),
          freeSlots_initFileArray, used]
        omega
      · have used : descriptorsUsed dentry = 1 := if_neg kind
        rw [openTimes_eq opens _ _ (by rw [used]; exact one_dvd _), freeSlots_initFileArray,
          used]

/-- An image whose only directory entry is a device with the name `r`. -/
def deviceImage : FileSystem := ⟨fun address => if address = 64 then 114 else 0, 0⟩

def deviceName : CString := ⟨[114], by decide⟩

/-- One open of a device on an empty table fills two entries and returns the second. -/
theorem deviceImage_not_openLaw :
    ¬ OpenLaw deviceImage (some deviceName) (initFileArray blank) := by
  intro law
  have opened : (sysOpen deviceImage (some deviceName) (initFileArray blank)).1 = 3 := by decide
  obtain ⟨index, _, returned, _, lowest, _⟩ := law.1 (by rw [opened]; decide)
  rw [opened] at returned
  have third : index = 3 := Fin.ext (by exact_mod_cast returned.symm)
  subst third
  exact lowest 2 (by decide) (by decide) (by decide)

end ComputerSystems.Kernel
