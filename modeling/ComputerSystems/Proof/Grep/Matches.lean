import ComputerSystems.Proof.Grep.Refill

namespace ComputerSystems.Grep

open Kernel (CString)
open Library

/-- The lines of a text that contain the string. -/
def matchingLines (s : CString) (text : List UInt8) : List (List UInt8) :=
  (text.splitOn newline).filter fun line => s.bytes <:+: line

def firstLine (text : List UInt8) : List UInt8 := text.takeWhile (· != newline)

def lastLine (text : List UInt8) : List UInt8 := text.rtakeWhile (· != newline)

/-- The first full array that does not end with a newline ends inside a line with the string. -/
inductive Severed (s : CString) : List UInt8 → Prop
  | here {filled rest : List UInt8} (full : filled.length = bufSize) (begun : lastLine filled ≠ [])
      (unfinished : firstLine rest ≠ [])
      (contained : s.bytes <:+: lastLine filled ++ firstLine rest) : Severed s (filled ++ rest)
  | later {filled rest : List UInt8} (full : filled.length = bufSize)
      (complete : lastLine filled = []) (severed : Severed s rest) : Severed s (filled ++ rest)

section
variable {s fname : CString} {filled rest text : List UInt8}

theorem Severed.long (severed : Severed s text) : bufSize < text.length := by
  induction severed with
  | here full begun unfinished contained =>
      rename_i filled rest
      have more : rest ≠ [] := by
        rintro rfl
        exact unfinished rfl
      have positive := List.length_pos_iff.2 more
      rw [List.length_append]
      omega
  | later full complete severed ih =>
      rw [List.length_append]
      omega

theorem severed_iff (full : filled.length = bufSize) :
    Severed s (filled ++ rest) ↔
      lastLine filled ≠ [] ∧ firstLine rest ≠ [] ∧
        s.bytes <:+: lastLine filled ++ firstLine rest ∨
      lastLine filled = [] ∧ Severed s rest := by
  constructor
  · generalize whole : filled ++ rest = text
    intro severed
    cases severed with
    | here full' begun unfinished contained =>
        obtain ⟨rfl, rfl⟩ := List.append_inj whole (full.trans full'.symm)
        exact .inl ⟨begun, unfinished, contained⟩
    | later full' complete severed =>
        obtain ⟨rfl, rfl⟩ := List.append_inj whole (full.trans full'.symm)
        exact .inr ⟨complete, severed⟩
  · rintro (⟨begun, unfinished, contained⟩ | ⟨complete, severed⟩)
    · exact .here full begun unfinished contained
    · exact .later full complete severed

theorem length_displayLine (line : List UInt8) :
    (displayLine fname line).length = fname.bytes.length + line.length + 2 := by
  simp only [displayLine, List.length_append, ascii, List.length_map]
  simp
  omega

/-- What one line adds to the output. -/
def lineOutput (s fname : CString) (line : List UInt8) : List UInt8 :=
  if Finds s line then displayLine fname line else []

theorem display_filter (lines : List (List UInt8)) :
    display fname (lines.filter fun line => Finds s line) =
      lines.flatMap (lineOutput s fname) := by
  induction lines with
  | nil => rfl
  | cons line lines ih =>
      rw [List.filter_cons, List.flatMap_cons, lineOutput, ← ih]
      by_cases contained : Finds s line <;> simp [contained, display]

/-- Two parts of a line give the output of the line only when the line has no match. -/
theorem lineOutput_parts {first second : List UInt8} (begun : first ≠ [])
    (unfinished : second ≠ []) :
    lineOutput s fname first ++ lineOutput s fname second = lineOutput s fname (first ++ second) ↔
      ¬Finds s (first ++ second) := by
  constructor
  · intro same contained
    have sizes := congrArg List.length same
    have firstLong := List.length_pos_iff.2 begun
    have secondLong := List.length_pos_iff.2 unfinished
    rw [List.length_append, lineOutput, lineOutput, lineOutput, if_pos contained] at sizes
    split_ifs at sizes <;> simp only [length_displayLine, List.length_append, List.length_nil]
      at sizes <;> omega
  · intro absent
    have left : ¬Finds s first := fun finds =>
      absent ⟨finds.1, finds.2.trans (List.prefix_append first second).isInfix⟩
    have right : ¬Finds s second := fun finds =>
      absent ⟨finds.1, finds.2.trans (List.suffix_append first second).isInfix⟩
    rw [lineOutput, lineOutput, lineOutput, if_neg left, if_neg right, if_neg absent]
    rfl

/-- To search the two sides of a cut one by one goes wrong exactly when the cut is inside a line in
which the search finds the string. -/
theorem display_cut {lines : List (List UInt8)} {tail : List UInt8} (nonempty : s.bytes ≠ [])
    (lined : Lined newline filled lines tail) (rest : List UInt8) :
    display fname (foundLines s filled) ++ display fname (foundLines s rest) =
        display fname (foundLines s (filled ++ rest)) ↔
      ¬(tail ≠ [] ∧ firstLine rest ≠ [] ∧ Finds s (tail ++ firstLine rest)) := by
  obtain ⟨after, split, whole⟩ := splitOn_cut lined rest
  have none : lineOutput s fname [] = [] :=
    if_neg fun finds => nonempty (List.infix_nil.1 finds.2)
  simp only [foundLines, display_filter, split, whole, lined.splitOn_eq, List.flatMap_append,
    List.flatMap_cons, List.flatMap_nil, List.append_nil, List.append_assoc,
    List.append_cancel_left_eq]
  rw [← List.append_assoc, List.append_left_inj]
  change lineOutput s fname tail ++ lineOutput s fname (firstLine rest) =
    lineOutput s fname (tail ++ firstLine rest) ↔ _
  by_cases begun : tail = []
  · subst begun
    simp [none]
  · by_cases unfinished : firstLine rest = []
    · simp [unfinished, none]
    · rw [lineOutput_parts begun unfinished]
      tauto

end

section
variable {Position : Type} {calls : Calls Position} {remaining : Position → List UInt8}
variable {s : CString} {data : Data}

/-- As long as the byte behind the array is a newline, all of a full array is searched, also the
line at its end that is not complete. -/
theorem readLoop_newlined (delivers : Delivers calls remaining) (fname : CString) (fuel : Nat)
    (position : Position) (printed : List UInt8) (nonempty : s.bytes ≠ [])
    (short : ∀ line ∈ (remaining position).splitOn newline, line.length < bufSize)
    (noTerminator : 0 ∉ remaining position) (newlined : data bufSize = newline)
    (enough : (remaining position).length < fuel) :
    ∃ output, readLoop calls s fname fuel position ⟨data, 0, printed⟩ =
        .ok (0, printed ++ output) ∧
      (output = display fname (foundLines s (remaining position)) ↔
        ¬(s.get 0 < 0x80 ∧ Severed s (remaining position))) := by
  induction fuel generalizing position data printed with
  | zero => exact absurd enough (Nat.not_lt_zero _)
  | succ fuel ih =>
      by_cases fits : (remaining position).length < bufSize
      · refine ⟨display fname (foundLines s (remaining position)), ?_, ?_⟩
        · by_cases ended : remaining position = []
          · rw [ended]
            exact @readLoop_last _ calls remaining s data [] delivers fname fuel position printed
              nonempty ended List.not_mem_nil List.not_mem_nil trivial (Nat.zero_le _)
          · have more := List.length_pos_iff.2 ended
            obtain ⟨fuel, rfl⟩ := Nat.exists_eq_succ_of_ne_zero (show fuel ≠ 0 by omega)
            exact @readLoop_short _ calls remaining s data [] delivers fname fuel position printed
              nonempty ended (by rwa [List.length_nil, Nat.zero_add]) noTerminator trivial
        · exact iff_of_true rfl fun severed => absurd severed.2.long (by omega)
      · obtain ⟨bytes, asked⟩ : ∃ bytes, (remaining position).take bufSize = bytes := ⟨_, rfl⟩
        obtain ⟨rest, left⟩ : ∃ rest, (remaining position).drop bufSize = rest := ⟨_, rfl⟩
        have cut : bytes ++ rest = remaining position := by
          rw [← asked, ← left, List.take_append_drop]
        have full : bytes.length = bufSize := by
          rw [← asked, List.length_take]
          omega
        obtain ⟨lines, tail, lined⟩ := exists_lined newline bytes
        have last : lastLine bytes = tail := lined.rtakeWhile_eq
        rw [← cut] at short noTerminator ⊢
        have noTerminator : 0 ∉ bytes ∧ 0 ∉ rest := by simpa using noTerminator
        have shorter : ∀ line ∈ rest.splitOn newline, line.length < bufSize := by
          obtain ⟨after, split, whole⟩ := splitOn_cut lined rest
          intro line member
          rw [split] at member
          rw [whole] at short
          rcases List.mem_cons.1 member with rfl | later
          · have long := short _ (List.mem_append_right lines List.mem_cons_self)
            rw [List.length_append] at long
            omega
          · exact short line (List.mem_append_right lines (List.mem_cons_of_mem _ later))
        obtain ⟨next, scanned, remains, after, round⟩ := readLoop_searches delivers fname fuel
          position printed nonempty asked lined noTerminator.1 full newlined
        rw [left] at remains
        have fewer : (remaining next).length < fuel := by
          rw [← cut, List.length_append] at enough
          rw [remains]
          have room : 0 < bufSize := by decide
          omega
        have output := @display_cut s fname bytes lines tail nonempty lined rest
        rw [severed_iff full, last]
        by_cases complete : tail = []
        · have newlinedAfter : scanned bufSize = newline := by
            rw [after, if_neg fun filled => filled complete]
          obtain ⟨later, ran, same⟩ := ih next (printed ++ display fname (foundLines s bytes))
            (by rwa [remains]) (by rw [remains]; exact noTerminator.2) newlinedAfter fewer
          rw [remains] at same
          refine ⟨display fname (foundLines s bytes) ++ later, ?_, ?_⟩
          · rw [round, ran, List.append_assoc]
          · rw [← output.2 fun wrong => wrong.1 complete, List.append_cancel_left_eq, same]
            simp [complete]
        · have guarded : scanned bufSize ≠ newline := by
            rw [after, if_pos complete]
            decide
          have ran := @readLoop_guarded _ calls remaining s scanned [] delivers fname fuel next
            (printed ++ display fname (foundLines s bytes)) nonempty
            (by rwa [remains]) List.not_mem_nil (by rw [remains]; exact noTerminator.2) trivial
            guarded fewer
          rw [List.nil_append, List.length_nil, remains] at ran
          refine ⟨display fname (foundLines s bytes) ++ display fname (foundLines s rest),
            ?_, ?_⟩
          · rw [round, ran, List.append_assoc]
          · rw [output, Finds]
            simp only [complete, not_false_eq_true, ne_eq, true_and, false_and, or_false]
            tauto

theorem doOneFile_output (delivers : Delivers calls remaining) (fname : CString)
    (nonempty : s.bytes ≠ []) (noTerminator : 0 ∉ remaining calls.start)
    (short : ∀ line ∈ (remaining calls.start).splitOn newline, line.length < bufSize)
    {fuel : Nat} (enough : (remaining calls.start).length < fuel) :
    ∃ output, doOneFile calls s fname data fuel = .ok (0, output) ∧
      (output = display fname (foundLines s (remaining calls.start)) ↔
        ¬(data bufSize = newline ∧ s.get 0 < 0x80 ∧ Severed s (remaining calls.start))) := by
  have opened : doOneFile calls s fname data fuel =
      readLoop calls s fname fuel calls.start ⟨data, 0, []⟩ := if_neg delivers.opened
  rw [opened]
  by_cases newlined : data bufSize = newline
  · obtain ⟨output, ran, same⟩ := readLoop_newlined delivers fname fuel calls.start [] nonempty
      short noTerminator newlined enough
    rw [List.nil_append] at ran
    exact ⟨output, ran, by rw [same, and_iff_right newlined]⟩
  · have ran := @readLoop_guarded _ calls remaining s data [] delivers fname fuel calls.start []
      nonempty short List.not_mem_nil noTerminator trivial newlined enough
    rw [List.nil_append, List.nil_append] at ran
    exact ⟨_, ran, iff_of_true rfl fun wrong => newlined wrong.1⟩

/-- A string with a low first byte is found in all lines that contain it. -/
theorem foundLines_low (low : s.get 0 < 0x80) (text : List UInt8) :
    foundLines s text = matchingLines s text := by
  simp only [foundLines, matchingLines, Finds, low, true_and]

theorem foundLines_high (high : ¬s.get 0 < 0x80) (text : List UInt8) : foundLines s text = [] := by
  simp [foundLines, Finds, high]

theorem display_eq_nil (fname : CString) (lines : List (List UInt8)) :
    display fname lines = [] ↔ lines = [] := by
  cases lines with
  | nil => exact iff_of_true rfl rfl
  | cons line lines =>
      refine iff_of_false (fun empty => ?_) (List.cons_ne_nil line lines)
      have size := congrArg List.length empty
      rw [display, List.flatMap_cons, List.length_append, length_displayLine] at size
      exact absurd size (by simp)

/-- For a file without NUL bytes and with lines shorter than the array, no access leaves the array.
The lines with the string are printed unless the array first held a newline behind the buffer and a
full array severs such a line. A string with a high first byte prints nothing. -/
theorem doOneFile_prints_iff (delivers : Delivers calls remaining) (fname : CString)
    (nonempty : s.bytes ≠ []) (noTerminator : 0 ∉ remaining calls.start)
    (short : ∀ line ∈ (remaining calls.start).splitOn newline, line.length < bufSize)
    {fuel : Nat} (enough : (remaining calls.start).length < fuel) :
    (∃ printed, doOneFile calls s fname data fuel = .ok (0, printed)) ∧
      (doOneFile calls s fname data fuel =
          .ok (0, display fname (matchingLines s (remaining calls.start))) ↔
        if s.get 0 < 0x80 then ¬(data bufSize = newline ∧ Severed s (remaining calls.start))
        else matchingLines s (remaining calls.start) = []) := by
  obtain ⟨output, ran, same⟩ :=
    @doOneFile_output _ _ _ _ data delivers fname nonempty noTerminator short fuel enough
  rw [ran, Except.ok.injEq, Prod.mk.injEq, and_iff_right rfl]
  refine ⟨⟨output, rfl⟩, ?_⟩
  by_cases low : s.get 0 < 0x80
  · rw [foundLines_low low, and_iff_right low] at same
    rw [if_pos low, same]
  · rw [foundLines_high low, display_nil] at same
    have empty : output = [] := same.2 fun severed => low severed.2.1
    rw [if_neg low, empty, eq_comm, display_eq_nil]

end

/-- Calls that serve the bytes of a file in order. -/
def fileCalls (file : List UInt8) : Calls (List UInt8) where
  opened := 2
  start := file
  read := fun rest count => (some (rest.take count), rest.drop count)
  closed := 0

theorem fileCalls_delivers (file : List UInt8) : Delivers (fileCalls file) id where
  opened := show (2 : Int) ≠ -1 by decide
  read := fun rest count => ⟨rest.drop count, rfl, rfl⟩
  closed := show (0 : Int) ≠ -1 by decide

/-- The second of the lines `one` and `two` contains a `w`. -/
theorem doOneFile_prints_iff_sample :
    doOneFile (fileCalls [111, 110, 101, 10, 116, 119, 111]) ⟨[119], by decide⟩
      ⟨[102], by decide⟩ (fun _ => newline) 8 = .ok (0, [102, 58, 116, 119, 111, 10]) := by
  have law := @doOneFile_prints_iff _ _ _ ⟨[119], by decide⟩ (fun _ => newline)
    (fileCalls_delivers [111, 110, 101, 10, 116, 119, 111]) ⟨[102], by decide⟩ (by decide)
    (by decide) (by decide) 8 (by decide)
  apply law.2.2
  rw [if_pos (by decide)]
  exact fun severed => absurd severed.2.long (by decide)

/-- A short line, and one that the first full array severs before its last byte. -/
def severedFile : List UInt8 := [97] ++ newline :: List.replicate (bufSize - 1) 98

theorem newline_notMem_replicate (count : Nat) : newline ∉ List.replicate count 98 := by
  intro member
  exact absurd (List.eq_of_mem_replicate member) (by decide)

theorem length_severedFile : severedFile.length = bufSize + 1 := by
  simp only [severedFile, List.length_append, List.length_cons, List.length_replicate]
  rfl

theorem severedFile_splitOn :
    severedFile.splitOn newline = [[97], List.replicate (bufSize - 1) 98] := by
  rw [severedFile, List.splitOn_append_cons_self_of_not_mem (by decide),
    List.splitOn_eq_singleton (newline_notMem_replicate _)]

theorem severedFile_severed : Severed ⟨[98], by decide⟩ severedFile := by
  have size : bufSize - 1 = (bufSize - 2) + 1 := rfl
  have whole : severedFile = ([97] ++ newline :: List.replicate (bufSize - 2) 98) ++ [98] := by
    rw [severedFile, size, List.replicate_succ']
    simp only [List.cons_append, List.nil_append]
  have last : lastLine ([97] ++ newline :: List.replicate (bufSize - 2) 98) =
      List.replicate (bufSize - 2) 98 :=
    ((Lined.nil (newline_notMem_replicate _)).cons (by decide)).rtakeWhile_eq
  rw [whole]
  refine .here ?_ ?_ ?_ ?_
  · simp only [List.length_append, List.length_cons, List.length_replicate]
    rfl
  · rw [last, ne_eq, List.replicate_eq_nil_iff]
    decide
  · decide
  · rw [last]
    exact (List.suffix_append _ [98]).isInfix

/-- The line is printed in two parts, and a line with a high byte is not printed for that byte. -/
theorem doOneFile_severs :
    (0 ∉ severedFile ∧ (∀ line ∈ severedFile.splitOn newline, line.length < bufSize) ∧
      ∃ printed, doOneFile (fileCalls severedFile) ⟨[98], by decide⟩ ⟨[102], by decide⟩
          (fun _ => newline) (bufSize + 2) = .ok (0, printed) ∧
        printed ≠ display ⟨[102], by decide⟩ (matchingLines ⟨[98], by decide⟩ severedFile)) ∧
      ∃ printed, doOneFile (fileCalls [0xE9, 10]) ⟨[0xE9], by decide⟩ ⟨[102], by decide⟩
          (fun _ => 0) 3 = .ok (0, printed) ∧
        printed ≠ display ⟨[102], by decide⟩ (matchingLines ⟨[0xE9], by decide⟩ [0xE9, 10]) := by
  constructor
  · have noTerminator : 0 ∉ severedFile := by
      intro member
      simp only [severedFile, List.mem_append, List.mem_cons, List.mem_replicate] at member
      revert member
      decide
    have short : ∀ line ∈ severedFile.splitOn newline, line.length < bufSize := by
      rw [severedFile_splitOn]
      intro line member
      rcases List.mem_pair.1 member with rfl | rfl
      · decide
      · rw [List.length_replicate]
        decide
    have low : CString.get ⟨[98], by decide⟩ 0 < 0x80 := by decide
    obtain ⟨output, ran, same⟩ := @doOneFile_output _ _ _ ⟨[98], by decide⟩ (fun _ => newline)
      (fileCalls_delivers severedFile) ⟨[102], by decide⟩ (by decide) noTerminator short
      (bufSize + 2) (length_severedFile ▸ Nat.lt_succ_self _)
    rw [foundLines_low low] at same
    refine ⟨noTerminator, short, output, ran, ?_⟩
    exact fun equal => same.1 equal ⟨rfl, low, severedFile_severed⟩
  · have high : ¬CString.get ⟨[0xE9], by decide⟩ 0 < 0x80 := by decide
    obtain ⟨output, ran, same⟩ := @doOneFile_output _ _ _ ⟨[0xE9], by decide⟩ (fun _ => 0)
      (fileCalls_delivers [0xE9, 10]) ⟨[102], by decide⟩ (by decide) (by decide) (by decide) 3
      (by decide)
    rw [foundLines_high high, display_nil] at same
    refine ⟨output, ran, ?_⟩
    rw [same.2 fun severed => high severed.2.1]
    decide

end ComputerSystems.Grep
