import Mathlib.Data.List.DropRight
import Mathlib.Tactic

namespace ComputerSystems.Library

section Lines
variable {Symbol : Type*} {separator : Symbol} {text first second tail : List Symbol}
variable {lines : List (List Symbol)}

/-- Lines that each end with the separator, and a last one that does not. -/
structure Lined (separator : Symbol) (text : List Symbol) (lines : List (List Symbol))
    (tail : List Symbol) : Prop where
  joined : text = lines.flatMap (· ++ [separator]) ++ tail
  lines_free : ∀ line ∈ lines, separator ∉ line
  tail_free : separator ∉ tail

namespace Lined

theorem nil (free : separator ∉ tail) : Lined separator tail [] tail :=
  ⟨rfl, fun _ member => absurd member List.not_mem_nil, free⟩

theorem cons {line : List Symbol} (lined : Lined separator text lines tail)
    (free : separator ∉ line) :
    Lined separator (line ++ separator :: text) (line :: lines) tail := by
  constructor
  · rw [List.flatMap_cons, lined.joined, List.append_assoc, List.append_assoc,
      List.singleton_append]
  · intro other member
    rcases List.mem_cons.1 member with rfl | later
    · exact free
    · exact lined.lines_free other later
  · exact lined.tail_free

/-- The text after the first line has the other lines. -/
theorem uncons {line : List Symbol} (lined : Lined separator text (line :: lines) tail) :
    ∃ rest, text = line ++ separator :: rest ∧ separator ∉ line ∧
      Lined separator rest lines tail := by
  refine ⟨lines.flatMap (· ++ [separator]) ++ tail, ?_, ?_, ?_⟩
  · rw [lined.joined, List.flatMap_cons, List.append_assoc, List.append_assoc,
      List.singleton_append]
  · exact lined.lines_free line List.mem_cons_self
  · exact ⟨rfl, fun other later => lined.lines_free other (List.mem_cons_of_mem line later),
      lined.tail_free⟩

theorem uncons_nil (lined : Lined separator text [] tail) : text = tail := by
  rw [lined.joined, List.flatMap_nil, List.nil_append]

theorem eq_nil (lined : Lined separator [] lines tail) : lines = [] ∧ tail = [] := by
  have joined := lined.joined
  cases lines with
  | nil => exact ⟨rfl, lined.uncons_nil.symm⟩
  | cons line lines => simp at joined

/-- Every line but the last has its separator in the text. -/
theorem length_le (lined : Lined separator text lines tail) :
    lines.length + tail.length ≤ text.length := by
  induction lines generalizing text with
  | nil => rw [lined.uncons_nil, List.length_nil, Nat.zero_add]
  | cons line lines ih =>
      obtain ⟨rest, rfl, _, later⟩ := lined.uncons
      have shorter := ih later
      rw [List.length_append, List.length_cons, List.length_cons]
      omega

/-- Symbols before the text belong to its first line. -/
theorem exists_extend (lined : Lined separator text lines tail) {symbol : Symbol}
    (other : symbol ≠ separator) :
    ∃ lines tail, Lined separator (symbol :: text) lines tail := by
  cases lines with
  | nil =>
      rw [lined.uncons_nil]
      refine ⟨[], symbol :: tail, nil ?_⟩
      exact fun member => (List.mem_cons.1 member).elim (other ·.symm) lined.tail_free
  | cons line lines =>
      obtain ⟨rest, rfl, free, later⟩ := lined.uncons
      refine ⟨(symbol :: line) :: lines, tail, ?_⟩
      rw [← List.cons_append]
      apply later.cons
      exact fun member => (List.mem_cons.1 member).elim (other ·.symm) free

end Lined

variable [DecidableEq Symbol]

theorem exists_lined (separator : Symbol) (text : List Symbol) :
    ∃ lines tail, Lined separator text lines tail := by
  induction text with
  | nil => exact ⟨[], [], Lined.nil List.not_mem_nil⟩
  | cons symbol text ih =>
      obtain ⟨lines, tail, lined⟩ := ih
      by_cases ends : symbol = separator
      · subst ends
        exact ⟨[] :: lines, tail, lined.cons List.not_mem_nil⟩
      · exact lined.exists_extend ends

/-- More text goes on behind the last line. -/
theorem Lined.splitOn_append (lined : Lined separator text lines tail) (more : List Symbol) :
    (text ++ more).splitOn separator = lines ++ (tail ++ more).splitOn separator := by
  induction lines generalizing text with
  | nil => rw [lined.uncons_nil, List.nil_append]
  | cons line lines ih =>
      obtain ⟨rest, rfl, free, later⟩ := lined.uncons
      rw [List.append_assoc, List.cons_append, List.splitOn_append_cons_self_of_not_mem free,
        ih later, List.cons_append]

/-- The lines are what the separator splits the text into. -/
theorem Lined.splitOn_eq (lined : Lined separator text lines tail) :
    text.splitOn separator = lines ++ [tail] := by
  have split := lined.splitOn_append []
  rwa [List.append_nil, List.append_nil, List.splitOn_eq_singleton lined.tail_free] at split

/-- A text without the separator goes in front of the first line. -/
theorem splitOn_append_of_notMem (free : separator ∉ first) :
    (first ++ text).splitOn separator = (text.splitOn separator).modifyHead (first ++ ·) := by
  induction first with
  | nil => rw [List.nil_append]; cases text.splitOn separator <;> rfl
  | cons symbol first ih =>
      have apart : (symbol == separator) = false :=
        beq_eq_false_iff_ne.2 fun same => free (same ▸ List.mem_cons_self)
      rw [List.cons_append, List.splitOn_cons_eq_if_modifyHead, apart, if_neg Bool.false_ne_true,
        ih fun member => free (List.mem_cons_of_mem symbol member), List.modifyHead_modifyHead]
      rfl

theorem splitOn_eq_cons (separator : Symbol) (text : List Symbol) :
    ∃ lines, text.splitOn separator = text.takeWhile (· != separator) :: lines := by
  induction text with
  | nil => exact ⟨[], rfl⟩
  | cons symbol text ih =>
      obtain ⟨lines, split⟩ := ih
      rw [List.splitOn_cons_eq_if_modifyHead, split]
      by_cases ends : symbol = separator
      · subst ends
        rw [if_pos (BEq.refl symbol), List.takeWhile_cons_of_neg (by simp)]
        exact ⟨_, rfl⟩
      · rw [if_neg (by simpa using ends), List.takeWhile_cons_of_pos (by simpa using ends)]
        exact ⟨lines, rfl⟩

/-- A line is at least as long as the part of it at the front of the text. -/
theorem exists_line_of_notMem (free : separator ∉ first) (text : List Symbol) :
    ∃ line ∈ (first ++ text).splitOn separator, first.length ≤ line.length := by
  obtain ⟨lines, split⟩ := splitOn_eq_cons separator text
  refine ⟨first ++ text.takeWhile (· != separator), ?_, ?_⟩
  · rw [splitOn_append_of_notMem free, split]
    exact List.mem_cons_self
  · rw [List.length_append]
    exact Nat.le_add_right _ _

theorem Lined.rtakeWhile_eq (lined : Lined separator text lines tail) :
    text.rtakeWhile (· != separator) = tail := by
  have kept : ∀ symbol ∈ tail.reverse, (symbol != separator) = true := by
    intro symbol member
    simpa using fun same : symbol = separator => lined.tail_free (same ▸ List.mem_reverse.1 member)
  have stopped : ((lines.flatMap (· ++ [separator])).reverse).takeWhile (· != separator) = [] := by
    rcases List.eq_nil_or_concat lines with rfl | ⟨earlier, line, rfl⟩
    · rfl
    · simp
  rw [List.rtakeWhile, lined.joined, List.reverse_append, List.takeWhile_append_of_pos kept,
    stopped, List.append_nil, List.reverse_reverse]

/-- Across a cut, the last line of the first part and the first line of the second are one. -/
theorem splitOn_cut (lined : Lined separator first lines tail) (second : List Symbol) :
    ∃ after, second.splitOn separator = second.takeWhile (· != separator) :: after ∧
      (first ++ second).splitOn separator =
        lines ++ (tail ++ second.takeWhile (· != separator)) :: after := by
  obtain ⟨after, split⟩ := splitOn_eq_cons separator second
  refine ⟨after, split, ?_⟩
  rw [lined.splitOn_append, splitOn_append_of_notMem lined.tail_free, split, List.modifyHead_cons]

end Lines

end ComputerSystems.Library
