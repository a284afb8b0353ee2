import ComputerSystems.Proof.Grep.ArrayLoops

namespace ComputerSystems.Grep

open Kernel (CString)
open Library

/-- The lines of a text in which the search finds the string. -/
def foundLines (s : CString) (text : List UInt8) : List (List UInt8) :=
  (text.splitOn newline).filter fun line => Finds s line

/-- A line is printed after the name of the file. -/
def displayLine (fname : CString) (line : List UInt8) : List UInt8 :=
  fname.bytes ++ ascii ":" ++ line ++ ascii "\n"

def display (fname : CString) (lines : List (List UInt8)) : List UInt8 :=
  lines.flatMap (displayLine fname)

section
variable {s fname : CString} {line : List UInt8}

@[simp] theorem display_nil : display fname [] = [] := rfl

@[simp] theorem display_append (first second : List (List UInt8)) :
    display fname (first ++ second) = display fname first ++ display fname second :=
  List.flatMap_append

theorem foundLines_append (first second : List UInt8) :
    foundLines s (first ++ newline :: second) =
      foundLines s first ++ foundLines s second := by
  rw [foundLines, List.splitOn_append_cons_self, List.filter_append]
  rfl

theorem foundLines_free (free : newline ∉ line) :
    foundLines s line = if Finds s line then [line] else [] := by
  rw [foundLines, List.splitOn_eq_singleton free, List.filter_cons, List.filter_nil]
  simp only [decide_eq_true_eq]

theorem foundLines_nil (nonempty : s.bytes ≠ []) : foundLines s [] = [] := by
  rw [foundLines_free List.not_mem_nil, if_neg fun finds => nonempty (List.infix_nil.1 finds.2)]

/-- The lines are searched one by one, the last one with the text behind it. -/
theorem foundLines_lined {text tail : List UInt8} {lines : List (List UInt8)}
    (lined : Lined newline text lines tail) (more : List UInt8) :
    foundLines s (text ++ more) =
      lines.flatMap (foundLines s) ++ foundLines s (tail ++ more) := by
  induction lines generalizing text with
  | nil => rw [lined.uncons_nil, List.flatMap_nil, List.nil_append]
  | cons line lines ih =>
      obtain ⟨rest, rfl, _, later⟩ := lined.uncons
      rw [List.append_assoc, List.cons_append, foundLines_append, ih later, List.flatMap_cons,
        List.append_assoc]

end

/-- One round of the loop over the lines, when it searches the line. -/
theorem scanLines_search {s : CString} (fname : CString) (cnt fuel : Nat) {start : Nat}
    {line : List UInt8} {progress : Progress} (nonempty : s.bytes ≠ [])
    (holds : Holds progress.data start line) (noTerminator : 0 ∉ line) (free : newline ∉ line)
    (stopped : start + line.length < progress.last →
      progress.data (start + line.length) = newline)
    (inside : start + line.length ≤ progress.last) (small : progress.last ≤ bufSize)
    (searched : progress.data (start + line.length) = newline ∨ cnt = 0 ∨ start = 0) :
    scanLines s fname cnt (fuel + 1) start progress =
      let data := Function.update progress.data (start + line.length) 0
      let printed := progress.printed ++ display fname (foundLines s line)
      if progress.last ≤ start + line.length + 1 then .ok ⟨data, 0, printed⟩
      else scanLines s fname cnt fuel (start + line.length + 1) ⟨data, progress.last, printed⟩ := by
  have place : start + line.length ≤ bufSize := Nat.le_trans inside small
  have ended : findEnd progress.data progress.last arrayFuel start = .ok (start + line.length) :=
    findEnd_eq holds free stopped inside small (by unfold arrayFuel; omega)
  have kept : Holds (Function.update progress.data (start + line.length) 0) start line :=
    holds.update (.inr (Nat.le_refl _)) 0
  have terminated :
      Function.update progress.data (start + line.length) (0 : UInt8) (start + line.length) = 0 :=
    Function.update_self ..
  have found := findMatch_eq arrayFuel kept terminated place nonempty
    (by unfold arrayFuel; omega)
  have printed := fdputs_eq kept noTerminator terminated place
  have goesOn : ¬(progress.data (start + line.length) ≠ newline ∧ cnt ≠ 0 ∧ start ≠ 0) := by
    tauto
  rw [foundLines_free free]
  by_cases contained : Finds s line
  · simp [scanLines, ended, load_eq _ place, store_eq _ _ place, goesOn, found, contained,
      printMatch, printed, display, displayLine]
  · simp [scanLines, ended, load_eq _ place, store_eq _ _ place, goesOn, found, contained]

/-- One round of the loop over the lines, when it moves an incomplete line to the front. -/
theorem scanLines_carry (s fname : CString) {cnt : Nat} (fuel : Nat) {start : Nat}
    {line : List UInt8} {progress : Progress} (holds : Holds progress.data start line)
    (noTerminator : 0 ∉ line) (free : newline ∉ line)
    (ended : start + line.length = progress.last) (small : progress.last ≤ bufSize)
    (more : progress.data progress.last ≠ newline) (read : cnt ≠ 0) (later : start ≠ 0) :
    ∃ data, scanLines s fname cnt (fuel + 1) start progress =
        .ok ⟨data, line.length, progress.printed⟩ ∧ Holds data 0 line ∧
      data bufSize = if progress.last = bufSize then 0 else progress.data bufSize := by
  have place : start + line.length ≤ bufSize := ended ▸ small
  have found : findEnd progress.data progress.last arrayFuel start = .ok (start + line.length) :=
    findEnd_eq holds free (by omega) (by omega) small (by unfold arrayFuel; omega)
  have kept : Holds (Function.update progress.data (start + line.length) 0) start line :=
    holds.update (.inr (Nat.le_refl _)) 0
  obtain ⟨data, copied, moved, frame⟩ := strcpy_eq arrayFuel kept noTerminator
    (Function.update_self ..) place (Nat.pos_of_ne_zero later) (by unfold arrayFuel; omega)
  refine ⟨data, ?_, moved, ?_⟩
  · have size : progress.last - start = line.length := by omega
    rw [← ended] at more
    simp [scanLines, found, load_eq _ place, store_eq _ _ place, more, read, later, copied, size]
  · rw [frame bufSize (by omega), Function.update_apply, ended]
    simp only [eq_comm]

/-- The incomplete line at the end of the data that is kept for the next read. -/
def carried (cnt start : Nat) (progress : Progress) (lines : List (List UInt8))
    (tail : List UInt8) : Prop :=
  tail ≠ [] ∧ progress.data progress.last ≠ newline ∧ cnt ≠ 0 ∧ (start ≠ 0 ∨ lines ≠ [])

instance (cnt start : Nat) (progress : Progress) (lines : List (List UInt8))
    (tail : List UInt8) : Decidable (carried cnt start progress lines tail) :=
  inferInstanceAs (Decidable (_ ∧ _ ∧ _ ∧ _))

/-- The loop searches all lines but the one that it keeps. -/
theorem scanLines_eq {s : CString} (fname : CString) (cnt fuel start : Nat)
    {text tail : List UInt8} {lines : List (List UInt8)} (progress : Progress)
    (nonempty : s.bytes ≠ []) (lined : Lined newline text lines tail)
    (holds : Holds progress.data start text)
    (noTerminator : 0 ∉ text) (whole : start + text.length = progress.last)
    (small : progress.last ≤ bufSize) (starts : text ≠ [] ∨ start = 0)
    (enough : lines.length < fuel) :
    ∃ data, Holds data 0 (if carried cnt start progress lines tail then tail else []) ∧
      (data bufSize = if tail ≠ [] ∧ progress.last = bufSize then 0 else progress.data bufSize) ∧
      scanLines s fname cnt fuel start progress =
        if carried cnt start progress lines tail then
          .ok ⟨data, tail.length,
            progress.printed ++ display fname (lines.flatMap (foundLines s))⟩
        else .ok ⟨data, 0, progress.printed ++ display fname (foundLines s text)⟩ := by
  induction lines generalizing text start fuel progress with
  | nil =>
      obtain ⟨fuel, rfl⟩ := Nat.exists_eq_succ_of_ne_zero (Nat.ne_of_gt enough)
      have single := lined.uncons_nil
      subst single
      by_cases keeps : carried cnt start progress [] text
      · obtain ⟨filled, more, read, later⟩ := keeps
        have moved : start ≠ 0 := later.resolve_right fun absent => absent rfl
        obtain ⟨data, ran, kept, last⟩ := scanLines_carry s fname fuel
          holds noTerminator lined.tail_free whole small more read moved
        have keeps : carried cnt start progress [] text := ⟨filled, more, read, later⟩
        refine ⟨data, ?_, ?_, ?_⟩
        · rwa [if_pos keeps]
        · simpa [filled] using last
        · simpa [keeps] using ran
      · have searched : progress.data (start + text.length) = newline ∨ cnt = 0 ∨ start = 0 := by
          rw [whole]
          unfold carried at keeps
          tauto
        refine ⟨Function.update progress.data (start + text.length) 0, ?_, ?_, ?_⟩
        · rw [if_neg keeps]
          exact trivial
        · rw [whole, Function.update_apply]
          rcases starts with filled | front
          · simp only [ne_eq, filled, not_false_eq_true, true_and, eq_comm]
          · by_cases empty : text = []
            · have size : progress.last = 0 := by simpa [empty, front] using whole.symm
              simp [empty, size, bufSize]
            · simp only [ne_eq, empty, not_false_eq_true, true_and, eq_comm]
        · rw [scanLines_search fname cnt fuel nonempty holds noTerminator lined.tail_free (by omega)
            (by omega) small searched, if_pos (by omega), if_neg keeps]
  | cons line lines ih =>
      obtain ⟨fuel, rfl⟩ := Nat.exists_eq_succ_of_ne_zero (Nat.ne_of_gt (Nat.zero_lt_of_lt enough))
      obtain ⟨rest, rfl, free, later⟩ := lined.uncons
      rw [List.length_append, List.length_cons] at whole
      obtain ⟨held, next, after⟩ := holds_append.1 holds
      have unended : 0 ∉ line ∧ 0 ∉ rest := by
        constructor <;> intro member <;> exact noTerminator (by simp [member])
      have round := scanLines_search fname cnt fuel nonempty
        held unended.1 free (fun _ => next) (by omega) small (.inl next)
      rw [round, foundLines_append]
      by_cases ended : rest = []
      · subst ended
        obtain ⟨rfl, rfl⟩ := later.eq_nil
        have complete : ¬carried cnt start progress [line] [] := fun keeps => keeps.1 rfl
        have size : start + line.length + 1 = progress.last := whole
        refine ⟨Function.update progress.data (start + line.length) 0, ?_, ?_, ?_⟩
        · rw [if_neg complete]
          exact trivial
        · rw [Function.update_of_ne (by omega), if_neg fun filled => filled.1 rfl]
        · rw [if_neg complete, foundLines_nil nonempty, List.append_nil, if_pos (by omega)]
      · have filled : 0 < rest.length := List.length_pos_iff.2 ended
        obtain ⟨data, kept, last, ran⟩ := ih fuel (start + line.length + 1)
          ⟨Function.update progress.data (start + line.length) 0, progress.last,
            progress.printed ++ display fname (foundLines s line)⟩ later
          (after.update (.inl (by omega)) 0) unended.2 (by rw [← whole]; ac_rfl) small
          (.inl ended) (Nat.lt_of_succ_lt_succ enough)
        have same : carried cnt (start + line.length + 1)
            ⟨Function.update progress.data (start + line.length) 0, progress.last,
              progress.printed ++ display fname (foundLines s line)⟩ lines tail ↔
            carried cnt start progress (line :: lines) tail := by
          simp [carried, show progress.last ≠ start + line.length by omega]
        refine ⟨data, ?_, ?_, ?_⟩
        · simpa only [same] using kept
        · have beyond : bufSize ≠ start + line.length := by omega
          simp only [last, Function.update_of_ne beyond]
        · rw [if_neg (by omega), ran]
          simp [same, List.append_assoc]

end ComputerSystems.Grep
