import ComputerSystems.Proof.Grep.Scan

namespace ComputerSystems.Grep

open Kernel (CString)
open Library

/-- The file opens and closes, and a read gives as many of the remaining bytes as it was asked
for, or all of them. -/
structure Delivers {Position : Type} (calls : Calls Position) (remaining : Position → List UInt8) :
    Prop where
  opened : calls.opened ≠ -1
  read : ∀ position count, ∃ next,
    calls.read position count = (some ((remaining position).take count), next) ∧
      remaining next = (remaining position).drop count
  closed : calls.closed ≠ -1

section
variable {Position : Type} {calls : Calls Position} {remaining : Position → List UInt8}
variable {s : CString} {data : Data} {carry : List UInt8}

/-- One round of the loop over the reads. The bytes that were kept and those that are new make up
the data, and the round keeps the last line or searches it. -/
theorem readLoop_round (delivers : Delivers calls remaining) (fname : CString) (fuel : Nat)
    (position : Position) (printed : List UInt8) (nonempty : s.bytes ≠ [])
    {bytes tail : List UInt8} {lines : List (List UInt8)}
    (asked : (remaining position).take (bufSize - carry.length) = bytes)
    (lined : Lined newline (carry ++ bytes) lines tail) (noTerminator : 0 ∉ carry ++ bytes)
    (holds : Holds data 0 carry) (small : carry.length ≤ bufSize) :
    ∃ next stored scanned,
      remaining next = (remaining position).drop (bufSize - carry.length) ∧
      stored bufSize = data bufSize ∧
      (scanned bufSize =
        if tail ≠ [] ∧ (carry ++ bytes).length = bufSize then 0 else data bufSize) ∧
      (carried bytes.length 0 ⟨stored, (carry ++ bytes).length, printed⟩ lines tail ∧
          Holds scanned 0 tail ∧
          readLoop calls s fname (fuel + 1) position ⟨data, carry.length, printed⟩ =
            readLoop calls s fname fuel next
              ⟨scanned, tail.length, printed ++ display fname (lines.flatMap (foundLines s))⟩ ∨
        ¬carried bytes.length 0 ⟨stored, (carry ++ bytes).length, printed⟩ lines tail ∧
          readLoop calls s fname (fuel + 1) position ⟨data, carry.length, printed⟩ =
            let searched := printed ++ display fname (foundLines s (carry ++ bytes))
            if bytes = [] then .ok (0, searched)
            else readLoop calls s fname fuel next ⟨scanned, 0, searched⟩) := by
  obtain ⟨next, ran, rest⟩ := delivers.read position (bufSize - carry.length)
  rw [asked] at ran
  have fits : carry.length + bytes.length ≤ bufSize := by
    rw [← asked, List.length_take]
    omega
  obtain ⟨stored, storing, kept, frame⟩ := @storeBytes_eq data carry.length bytes (by omega)
  have whole : Holds stored 0 (carry ++ bytes) := by
    refine holds_append.2 ⟨?_, by rwa [Nat.zero_add]⟩
    exact holds.congr fun index _ before => frame index (.inl (by omega))
  have many : lines.length < arrayFuel := by
    have few := lined.length_le
    rw [List.length_append] at few
    unfold arrayFuel
    omega
  obtain ⟨scanned, front, last, scanning⟩ := scanLines_eq fname bytes.length arrayFuel 0
    ⟨stored, carry.length + bytes.length, printed⟩ nonempty lined whole noTerminator
    (by rw [Nat.zero_add, List.length_append]) fits (.inr rfl) many
  have same : stored bufSize = data bufSize := frame bufSize (.inr fits)
  refine ⟨next, stored, scanned, rest, same, ?_, ?_⟩
  · rw [List.length_append, ← same]
    exact last
  · rw [readLoop, ran]
    simp only [storing, ok_bind, scanning, List.length_append, pure_eq]
    by_cases keeps : carried bytes.length 0
        ⟨stored, carry.length + bytes.length, printed⟩ lines tail
    · left
      rw [if_pos keeps] at front
      refine ⟨keeps, front, ?_⟩
      rw [if_pos keeps]
      exact if_neg keeps.2.2.1
    · right
      refine ⟨keeps, ?_⟩
      rw [if_neg keeps]
      simp only [ok_bind, finish, if_neg delivers.closed, List.length_eq_zero_iff]

/-- The last read gives nothing, and the line that was kept is searched. -/
theorem readLoop_last (delivers : Delivers calls remaining) (fname : CString) (fuel : Nat)
    (position : Position) (printed : List UInt8) (nonempty : s.bytes ≠ [])
    (ended : remaining position = []) (free : newline ∉ carry) (noTerminator : 0 ∉ carry)
    (holds : Holds data 0 carry) (small : carry.length ≤ bufSize) :
    readLoop calls s fname (fuel + 1) position ⟨data, carry.length, printed⟩ =
      .ok (0, printed ++ display fname (foundLines s carry)) := by
  have asked : (remaining position).take (bufSize - carry.length) = [] := by
    rw [ended, List.take_nil]
  have lined : Lined newline (carry ++ []) [] carry := by
    rw [List.append_nil]
    exact Lined.nil free
  obtain ⟨next, stored, scanned, -, -, -, round⟩ := readLoop_round delivers fname fuel position
    printed nonempty asked lined (by rwa [List.append_nil]) holds small
  rcases round with ⟨keeps, -, -⟩ | ⟨-, round⟩
  · exact absurd rfl keeps.2.2.1
  · rw [round, List.append_nil, if_pos rfl]

/-- A read that gives less than the room gives the rest of the file. -/
theorem readLoop_short (delivers : Delivers calls remaining) (fname : CString) (fuel : Nat)
    (position : Position) (printed : List UInt8) (nonempty : s.bytes ≠ [])
    (more : remaining position ≠ []) (short : carry.length + (remaining position).length < bufSize)
    (noTerminator : 0 ∉ carry ++ remaining position) (holds : Holds data 0 carry) :
    readLoop calls s fname (fuel + 2) position ⟨data, carry.length, printed⟩ =
      .ok (0, printed ++ display fname (foundLines s (carry ++ remaining position))) := by
  obtain ⟨lines, tail, lined⟩ := exists_lined newline (carry ++ remaining position)
  have few := lined.length_le
  rw [List.length_append] at few
  have ended : ∀ byte ∈ tail, byte ∈ carry ++ remaining position := by
    intro byte member
    rw [lined.joined]
    exact List.mem_append_right _ member
  obtain ⟨next, stored, scanned, rest, -, -, round⟩ := readLoop_round delivers fname (fuel + 1)
    position printed nonempty (List.take_of_length_le (by omega)) lined noTerminator holds
    (by omega)
  rw [List.drop_of_length_le (by omega)] at rest
  rcases round with ⟨-, front, round⟩ | ⟨-, round⟩
  · rw [round, readLoop_last delivers fname fuel next _ nonempty rest lined.tail_free
      (fun member => noTerminator (ended 0 member)) front (by omega)]
    have split := foundLines_lined (s := s) lined []
    rw [List.append_nil, List.append_nil] at split
    rw [split, display_append, List.append_assoc]
  · have empty : (0 : Nat) = ([] : List UInt8).length := rfl
    rw [round]
    simp only [if_neg more]
    rw [empty, readLoop_last delivers fname fuel next _ nonempty rest List.not_mem_nil
      List.not_mem_nil trivial (Nat.zero_le _), foundLines_nil nonempty, display_nil,
      List.append_nil]

/-- When the byte behind the full array is no newline, the incomplete line is kept. -/
theorem readLoop_keeps (delivers : Delivers calls remaining) (fname : CString) (fuel : Nat)
    (position : Position) (printed : List UInt8) (nonempty : s.bytes ≠ [])
    {bytes tail : List UInt8} {lines : List (List UInt8)}
    (asked : (remaining position).take (bufSize - carry.length) = bytes) (more : bytes ≠ [])
    (lined : Lined newline (carry ++ bytes) lines tail) (begun : lines ≠ [])
    (noTerminator : 0 ∉ carry ++ bytes) (holds : Holds data 0 carry)
    (full : (carry ++ bytes).length = bufSize) (guarded : data bufSize ≠ newline) :
    ∃ next scanned, remaining next = (remaining position).drop (bufSize - carry.length) ∧
      scanned bufSize ≠ newline ∧ Holds scanned 0 tail ∧
      readLoop calls s fname (fuel + 1) position ⟨data, carry.length, printed⟩ =
        readLoop calls s fname fuel next
          ⟨scanned, tail.length, printed ++ display fname (lines.flatMap (foundLines s))⟩ := by
  have small : carry.length ≤ bufSize := by
    rw [← full, List.length_append]
    exact Nat.le_add_right _ _
  obtain ⟨next, stored, scanned, rest, same, last, round⟩ := readLoop_round delivers fname fuel
    position printed nonempty asked lined noTerminator holds small
  have guardedAfter : scanned bufSize ≠ newline := by
    rw [last]
    split
    · decide
    · exact guarded
  refine ⟨next, scanned, rest, guardedAfter, ?_⟩
  rcases round with ⟨-, front, round⟩ | ⟨searched, round⟩
  · exact ⟨front, round⟩
  · have complete : tail = [] := by
      by_contra filled
      apply searched
      refine ⟨filled, ?_, ?_, .inr begun⟩
      · rw [full]
        show stored bufSize ≠ newline
        rwa [same]
      · rwa [ne_eq, List.length_eq_zero_iff]
    subst complete
    have split := foundLines_lined (s := s) lined []
    rw [List.append_nil, List.append_nil, foundLines_nil nonempty, List.append_nil] at split
    refine ⟨trivial, ?_⟩
    rw [round, split]
    exact if_neg more

/-- When the byte behind the full array is a newline, everything in the array is searched. -/
theorem readLoop_searches (delivers : Delivers calls remaining) (fname : CString) (fuel : Nat)
    (position : Position) (printed : List UInt8) (nonempty : s.bytes ≠ [])
    {bytes tail : List UInt8} {lines : List (List UInt8)}
    (asked : (remaining position).take bufSize = bytes)
    (lined : Lined newline bytes lines tail) (noTerminator : 0 ∉ bytes)
    (full : bytes.length = bufSize) (newlined : data bufSize = newline) :
    ∃ next scanned, remaining next = (remaining position).drop bufSize ∧
      (scanned bufSize = if tail ≠ [] then 0 else newline) ∧
      readLoop calls s fname (fuel + 1) position ⟨data, 0, printed⟩ =
        readLoop calls s fname fuel next
          ⟨scanned, 0, printed ++ display fname (foundLines s bytes)⟩ := by
  have more : bytes ≠ [] := by
    rintro rfl
    exact absurd full (by decide)
  obtain ⟨next, stored, scanned, rest, same, last, round⟩ := @readLoop_round _ calls remaining s
    data [] delivers fname fuel position printed nonempty bytes tail lines asked lined noTerminator
    trivial (Nat.zero_le _)
  rw [List.nil_append] at last round
  refine ⟨next, scanned, rest, ?_, ?_⟩
  · rw [last, newlined]
    simp only [full, and_true]
  · rcases round with ⟨keeps, -⟩ | ⟨-, round⟩
    · refine absurd ?_ keeps.2.1
      rw [full]
      exact same.trans newlined
    · rw [List.length_nil] at round
      rw [round]
      exact if_neg more

/-- Once the byte behind the array is no newline, the loop prints all lines in which the
search finds the string. -/
theorem readLoop_guarded (delivers : Delivers calls remaining) (fname : CString) (fuel : Nat)
    (position : Position) (printed : List UInt8) (nonempty : s.bytes ≠ [])
    (short : ∀ line ∈ (carry ++ remaining position).splitOn newline, line.length < bufSize)
    (free : newline ∉ carry) (noTerminator : 0 ∉ carry ++ remaining position)
    (holds : Holds data 0 carry) (guarded : data bufSize ≠ newline)
    (enough : (remaining position).length < fuel) :
    readLoop calls s fname fuel position ⟨data, carry.length, printed⟩ =
      .ok (0, printed ++ display fname (foundLines s (carry ++ remaining position))) := by
  induction fuel generalizing position data carry printed with
  | zero => exact absurd enough (Nat.not_lt_zero _)
  | succ fuel ih =>
      have small : carry.length < bufSize := by
        obtain ⟨line, member, long⟩ := exists_line_of_notMem free (remaining position)
        exact Nat.lt_of_le_of_lt long (short line member)
      by_cases ended : remaining position = []
      · rw [ended, List.append_nil] at noTerminator ⊢
        exact readLoop_last delivers fname fuel position printed nonempty ended free noTerminator
          holds (Nat.le_of_lt small)
      · have more : 0 < (remaining position).length := List.length_pos_iff.2 ended
        by_cases fits : carry.length + (remaining position).length < bufSize
        · obtain ⟨fuel, rfl⟩ := Nat.exists_eq_succ_of_ne_zero (show fuel ≠ 0 by omega)
          exact readLoop_short delivers fname fuel position printed nonempty ended fits
            noTerminator holds
        · obtain ⟨bytes, asked⟩ :
              ∃ bytes, (remaining position).take (bufSize - carry.length) = bytes := ⟨_, rfl⟩
          obtain ⟨rest, left⟩ :
              ∃ rest, (remaining position).drop (bufSize - carry.length) = rest := ⟨_, rfl⟩
          have cut : bytes ++ rest = remaining position := by
            rw [← asked, ← left, List.take_append_drop]
          have size : bytes.length = bufSize - carry.length := by
            rw [← asked, List.length_take]
            omega
          have full : (carry ++ bytes).length = bufSize := by
            rw [List.length_append]
            omega
          have filled : bytes ≠ [] := List.ne_nil_of_length_pos (by omega)
          obtain ⟨lines, tail, lined⟩ := exists_lined newline (carry ++ bytes)
          rw [← cut, ← List.append_assoc] at short noTerminator ⊢
          have begun : lines ≠ [] := by
            rintro rfl
            have single := lined.uncons_nil
            obtain ⟨line, member, long⟩ :=
              exists_line_of_notMem (single ▸ lined.tail_free) rest
            exact absurd (short line member) (by omega)
          have ended : 0 ∉ tail ++ rest := by
            rw [lined.joined, List.append_assoc] at noTerminator
            exact fun member => noTerminator (List.mem_append_right _ member)
          obtain ⟨next, scanned, remains, guardedAfter, front, round⟩ := readLoop_keeps delivers
            fname fuel position printed nonempty asked filled lined begun
            (fun member => noTerminator (List.mem_append_left _ member)) holds full guarded
          rw [left] at remains
          rw [round, ih next _ ?_ lined.tail_free ?_ front guardedAfter ?_, remains,
            foundLines_lined lined, display_append, List.append_assoc]
          · intro line member
            rw [remains] at member
            apply short
            rw [lined.splitOn_append]
            exact List.mem_append_right lines member
          · rwa [remains]
          · rw [← cut, List.length_append] at enough
            rw [remains]
            omega

end

end ComputerSystems.Grep
