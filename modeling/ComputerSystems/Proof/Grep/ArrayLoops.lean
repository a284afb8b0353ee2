import ComputerSystems.Construction.Grep.DoOneFile
import ComputerSystems.Library.Lines

namespace ComputerSystems.Grep

open Kernel (CString int8)

/-- The array holds some bytes from a place on. -/
def Holds (data : Data) : Nat → List UInt8 → Prop
  | _, [] => True
  | start, byte :: bytes => data start = byte ∧ Holds data (start + 1) bytes

section
variable {data other : Data} {start : Nat} {bytes more : List UInt8}

theorem Holds.congr (holds : Holds data start bytes)
    (same : ∀ index, start ≤ index → index < start + bytes.length → other index = data index) :
    Holds other start bytes := by
  induction bytes generalizing start with
  | nil => exact trivial
  | cons byte bytes ih =>
      have size : (byte :: bytes).length = bytes.length + 1 := rfl
      constructor
      · rw [same start (Nat.le_refl start) (by omega)]
        exact holds.1
      · exact ih holds.2 fun index after before => same index (by omega) (by omega)

/-- A store elsewhere leaves the bytes. -/
theorem Holds.update {place : Nat} (holds : Holds data start bytes)
    (apart : place < start ∨ start + bytes.length ≤ place) (byte : UInt8) :
    Holds (Function.update data place byte) start bytes := by
  apply holds.congr
  intro index after before
  exact Function.update_of_ne (show index ≠ place by omega) byte data

theorem holds_append :
    Holds data start (bytes ++ more) ↔
      Holds data start bytes ∧ Holds data (start + bytes.length) more := by
  induction bytes generalizing start with
  | nil => exact (and_iff_right trivial).symm
  | cons byte bytes ih =>
      rw [List.cons_append, Holds, Holds, ih, and_assoc, List.length_cons, Nat.add_right_comm,
        Nat.add_assoc]

end

theorem load_eq {index : Nat} (data : Data) (inside : index ≤ bufSize) :
    load data index = .ok (data index) := if_pos (Nat.lt_succ_of_le inside)

theorem store_eq {index : Nat} (data : Data) (byte : UInt8) (inside : index ≤ bufSize) :
    store data index byte = .ok (Function.update data index byte) :=
  if_pos (Nat.lt_succ_of_le inside)

@[simp] theorem ok_bind {First Second : Type} (value : First)
    (next : First → Except Fault Second) : (Except.ok value >>= next) = next value := rfl

@[simp] theorem pure_eq {First : Type} (value : First) :
    (pure value : Except Fault First) = .ok value := rfl

section
variable {data : Data} {fuel start last : Nat} {line bytes : List UInt8}

/-- The end of a line is its newline or the end of the data. -/
theorem findEnd_eq (holds : Holds data start line) (free : newline ∉ line)
    (stopped : start + line.length < last → data (start + line.length) = newline)
    (inside : start + line.length ≤ last) (small : last ≤ bufSize) (enough : line.length < fuel) :
    findEnd data last fuel start = .ok (start + line.length) := by
  induction line generalizing start fuel with
  | nil =>
      obtain ⟨fuel, rfl⟩ := Nat.exists_eq_succ_of_ne_zero (Nat.ne_of_gt enough)
      by_cases ended : last ≤ start
      · simp [findEnd, ended]
      · have ends : data start = newline := stopped (Nat.lt_of_not_le ended)
        simp [findEnd, ended, load_eq data (show start ≤ bufSize by omega), ends]
  | cons byte line ih =>
      rw [List.length_cons] at stopped inside enough ⊢
      obtain ⟨fuel, rfl⟩ := Nat.exists_eq_succ_of_ne_zero (Nat.ne_of_gt (Nat.zero_lt_of_lt enough))
      have goesOn : data start ≠ newline := by
        rw [holds.1]
        exact fun same => free (same ▸ List.mem_cons_self)
      have place : start + 1 + line.length = start + (line.length + 1) := by omega
      have rest := ih holds.2 (fun member => free (List.mem_cons_of_mem byte member))
        (by rwa [place]) (by omega) (Nat.lt_of_succ_lt_succ enough)
      rw [place] at rest
      simpa [findEnd, show ¬last ≤ start by omega, load_eq data (show start ≤ bufSize by omega),
        goesOn] using rest

theorem strlen_eq (holds : Holds data start line) (noTerminator : 0 ∉ line)
    (terminated : data (start + line.length) = 0) (inside : start + line.length ≤ bufSize)
    (enough : line.length < fuel) : strlen data fuel start = .ok line.length := by
  induction line generalizing start fuel with
  | nil =>
      obtain ⟨fuel, rfl⟩ := Nat.exists_eq_succ_of_ne_zero (Nat.ne_of_gt enough)
      have ends : data start = 0 := terminated
      have loaded : load data start = .ok (data start) := load_eq data inside
      simp [strlen, loaded, ends]
  | cons byte line ih =>
      rw [List.length_cons] at terminated inside enough ⊢
      obtain ⟨fuel, rfl⟩ := Nat.exists_eq_succ_of_ne_zero (Nat.ne_of_gt (Nat.zero_lt_of_lt enough))
      have goesOn : data start ≠ 0 := by
        rw [holds.1]
        exact fun same => noTerminator (same ▸ List.mem_cons_self)
      have place : start + 1 + line.length = start + (line.length + 1) := by omega
      have rest := ih holds.2 (fun member => noTerminator (List.mem_cons_of_mem byte member))
        (by rwa [place]) (by omega) (Nat.lt_of_succ_lt_succ enough)
      simp [strlen, load_eq data (show start ≤ bufSize by omega), goesOn, rest]

theorem loadBytes_eq (holds : Holds data start bytes)
    (inside : start + bytes.length ≤ bufSize + 1) :
    loadBytes data start bytes.length = .ok bytes := by
  induction bytes generalizing start with
  | nil => rfl
  | cons byte bytes ih =>
      rw [List.length_cons] at inside ⊢
      have rest := ih holds.2 (by omega)
      simp [loadBytes, load_eq data (show start ≤ bufSize by omega), rest, holds.1]

theorem fdputs_eq (holds : Holds data start line) (noTerminator : 0 ∉ line)
    (terminated : data (start + line.length) = 0) (inside : start + line.length ≤ bufSize) :
    fdputs data start = .ok line := by
  have measured : strlen data arrayFuel start = .ok line.length :=
    strlen_eq holds noTerminator terminated inside (by unfold arrayFuel; omega)
  rw [fdputs, measured, ok_bind, loadBytes_eq holds (by omega)]

/-- A copy towards the front moves a string, and leaves the bytes before and after it. -/
theorem strcpy_eq (fuel : Nat) {dst : Nat} (holds : Holds data start line) (noTerminator : 0 ∉ line)
    (terminated : data (start + line.length) = 0) (inside : start + line.length ≤ bufSize)
    (front : dst < start) (enough : line.length < fuel) :
    ∃ copied, strcpy fuel dst start data = .ok copied ∧ Holds copied dst line ∧
      ∀ index, index < dst ∨ dst + line.length < index → copied index = data index := by
  induction line generalizing start dst fuel data with
  | nil =>
      obtain ⟨fuel, rfl⟩ := Nat.exists_eq_succ_of_ne_zero (Nat.ne_of_gt enough)
      have ends : data start = 0 := terminated
      have low : dst ≤ bufSize := Nat.le_trans (Nat.le_of_lt front) inside
      refine ⟨Function.update data dst 0, ?_, trivial, ?_⟩
      · simp [strcpy, load_eq data (show start ≤ bufSize from inside), store_eq data _ low, ends]
      · intro index apart
        exact Function.update_of_ne (by rw [List.length_nil] at apart; omega) _ data
  | cons byte line ih =>
      rw [List.length_cons] at terminated inside enough
      obtain ⟨fuel, rfl⟩ := Nat.exists_eq_succ_of_ne_zero (Nat.ne_of_gt (Nat.zero_lt_of_lt enough))
      have goesOn : byte ≠ 0 := fun same => noTerminator (same ▸ List.mem_cons_self)
      have place : start + 1 + line.length = start + (line.length + 1) := by omega
      have after : Holds (Function.update data dst byte) (start + 1) line :=
        holds.2.update (.inl (by omega)) byte
      have ends : Function.update data dst byte (start + 1 + line.length) = 0 := by
        rw [Function.update_of_ne (by omega), place, terminated]
      obtain ⟨copied, ran, kept, frame⟩ := ih fuel after
        (fun member => noTerminator (List.mem_cons_of_mem byte member)) ends (by omega)
        (Nat.succ_lt_succ front) (Nat.lt_of_succ_lt_succ enough)
      refine ⟨copied, ?_, ⟨?_, kept⟩, ?_⟩
      · simp [strcpy, load_eq data (show start ≤ bufSize by omega),
          store_eq data _ (show dst ≤ bufSize by omega), holds.1, goesOn, ran]
      · rw [frame dst (.inl (Nat.lt_succ_self dst)), Function.update_self]
      · intro index apart
        rw [List.length_cons] at apart
        rw [frame index (by omega), Function.update_of_ne (by omega)]

/-- The system call stores all bytes of a read that fits, and nothing else. -/
theorem storeBytes_eq (inside : start + bytes.length ≤ bufSize + 1) :
    ∃ stored, storeBytes start bytes data = .ok stored ∧ Holds stored start bytes ∧
      ∀ index, index < start ∨ start + bytes.length ≤ index → stored index = data index := by
  induction bytes generalizing start data with
  | nil => exact ⟨data, rfl, trivial, fun _ _ => rfl⟩
  | cons byte bytes ih =>
      rw [List.length_cons] at inside
      obtain ⟨stored, ran, kept, frame⟩ :=
        @ih (Function.update data start byte) (start + 1) (by omega)
      refine ⟨stored, ?_, ⟨?_, kept⟩, ?_⟩
      · simp [storeBytes, store_eq data byte (show start ≤ bufSize by omega), ran]
      · rw [frame start (.inl (Nat.lt_succ_self start)), Function.update_self]
      · intro index apart
        rw [List.length_cons] at apart
        rw [frame index (by omega), Function.update_of_ne (by omega)]

end

section
variable {data : Data} {start : Nat} {line : List UInt8} {s : CString}

/-- The comparison is zero when the rest of the string starts the rest of the line. -/
theorem strncmp_eq (before rest : List UInt8) (holds : Holds data start line)
    (terminated : data (start + line.length) = 0) (inside : start + line.length ≤ bufSize)
    (whole : s.bytes = before ++ rest) :
    ∃ value, strncmp data s start before.length rest.length = .ok value ∧
      (value = 0 ↔ rest <+: line) := by
  induction rest generalizing start line before with
  | nil => exact ⟨0, rfl, by simp⟩
  | cons char rest ih =>
      have current : s.get before.length = char := by simp [CString.get, whole]
      have nonzero : char ≠ 0 := by
        rintro rfl
        exact s.noTerminator (by simp [whole])
      have loaded := load_eq data (show start ≤ bufSize by omega)
      cases line with
      | nil =>
          have ends : data start = 0 := terminated
          refine ⟨-(char.toNat : Int), ?_, ?_⟩
          · simp [strncmp, loaded, ends, current, nonzero.symm]
          · rw [neg_eq_zero, Int.natCast_eq_zero]
            exact ⟨fun zero => absurd (UInt8.toNat_inj.1 zero) nonzero, by simp⟩
      | cons byte line =>
          rw [List.length_cons] at terminated inside
          by_cases same : byte = char
          · subst same
            obtain ⟨value, ran, zero⟩ := ih (before ++ [byte]) holds.2
              (by rw [← terminated]; congr 1; omega) (by omega) (by simp [whole])
            rw [List.length_append, List.length_singleton] at ran
            by_cases ended : rest = []
            · subst ended
              refine ⟨0, ?_, by simp⟩
              simp [strncmp, loaded, holds.1, current]
            · refine ⟨value, ?_, ?_⟩
              · simp [strncmp, loaded, holds.1, current, nonzero, ended, ran]
              · rw [zero, List.cons_prefix_cons, and_iff_right rfl]
          · refine ⟨byte.toNat - char.toNat, ?_, ?_⟩
            · simp [strncmp, loaded, holds.1, current, same]
            · rw [List.cons_prefix_cons, Int.sub_eq_zero, Int.natCast_inj, UInt8.toNat_inj]
              exact ⟨fun equal => absurd equal same, fun equal => absurd equal.1.symm same⟩

/-- The lines in which the search finds the string. A string with a high first byte is in none. -/
def Finds (s : CString) (line : List UInt8) : Prop := s.get 0 < 0x80 ∧ s.bytes <:+: line

instance (s : CString) (line : List UInt8) : Decidable (Finds s line) :=
  inferInstanceAs (Decidable (_ ∧ _))

theorem finds_cons {byte : UInt8} :
    Finds s (byte :: line) ↔ (s.get 0 < 0x80 ∧ s.bytes <+: byte :: line) ∨ Finds s line := by
  rw [Finds, Finds, List.infix_cons_iff, and_or_left]

/-- A signed byte is equal to an unsigned one only when it is low. -/
theorem int8_eq_iff {first byte : UInt8} :
    int8 first = byte.toNat ↔ first < 0x80 ∧ first = byte := by
  have small := first.toNat_lt
  have low : first < 0x80 ↔ first.toNat < 2 ^ 7 := UInt8.lt_iff_toNat_lt
  rw [low, ← UInt8.toNat_inj]
  unfold int8
  split_ifs <;> omega

/-- The search finds the string exactly in these lines. -/
theorem findMatch_eq (fuel : Nat) (holds : Holds data start line)
    (terminated : data (start + line.length) = 0) (inside : start + line.length ≤ bufSize)
    (nonempty : s.bytes ≠ []) (enough : line.length < fuel) :
    findMatch s data (start + line.length) fuel start = .ok (decide (Finds s line)) := by
  induction line generalizing start fuel with
  | nil =>
      obtain ⟨fuel, rfl⟩ := Nat.exists_eq_succ_of_ne_zero (Nat.ne_of_gt enough)
      simp [findMatch, Finds, nonempty]
  | cons byte line ih =>
      have compared := strncmp_eq [] s.bytes holds terminated inside
        (List.nil_append s.bytes).symm
      rw [List.length_cons] at terminated inside enough ⊢
      obtain ⟨fuel, rfl⟩ := Nat.exists_eq_succ_of_ne_zero (Nat.ne_of_gt (Nat.zero_lt_of_lt enough))
      obtain ⟨value, ran, zero⟩ := compared
      have place : start + 1 + line.length = start + (line.length + 1) := by omega
      have rest := ih fuel holds.2 (by rwa [place]) (by omega) (Nat.lt_of_succ_lt_succ enough)
      rw [place] at rest
      have loaded := load_eq data (show start ≤ bufSize by omega)
      have running : ¬start + (line.length + 1) ≤ start := by omega
      by_cases first : int8 (s.get 0) = byte.toNat
      · rw [List.length_nil] at ran
        by_cases found : value = 0
        · have finds : Finds s (byte :: line) :=
            finds_cons.2 (.inl ⟨(int8_eq_iff.1 first).1, zero.1 found⟩)
          simp [findMatch, running, loaded, holds.1, first, ran, found, finds]
        · have same : Finds s (byte :: line) ↔ Finds s line :=
            finds_cons.trans (or_iff_right fun starts => found (zero.2 starts.2))
          simp [findMatch, running, loaded, holds.1, first, ran, found, rest, same]
      · have same : Finds s (byte :: line) ↔ Finds s line := by
          rw [finds_cons]
          apply or_iff_right
          rintro ⟨low, starts⟩
          obtain ⟨char, chars, whole⟩ := List.exists_cons_of_ne_nil nonempty
          rw [whole, List.cons_prefix_cons] at starts
          exact first (int8_eq_iff.2 ⟨low, by simp [CString.get, whole, starts.1]⟩)
        simp [findMatch, running, loaded, holds.1, first, rest, same]

end

end ComputerSystems.Grep
