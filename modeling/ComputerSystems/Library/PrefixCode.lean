import Mathlib.Computability.Language
import Mathlib.Tactic

namespace ComputerSystems.Library
open Computability

/-- A code whose words are not empty, and none is the beginning of another. -/
structure PrefixCode {Symbol : Type*} (code : Language Symbol) : Prop where
  nonempty : [] ∉ code
  unique : ∀ first ∈ code, ∀ second ∈ code, first <+: second → first = second

namespace PrefixCode
variable {Symbol : Type*} {code : Language Symbol} {stream rest : List Symbol}

theorem append_kstar (first : stream ∈ code∗) (second : rest ∈ code∗) :
    stream ++ rest ∈ code∗ := by
  rw [Language.mem_kstar] at first second ⊢
  obtain ⟨words, rfl, coded⟩ := first
  obtain ⟨others, rfl, also⟩ := second
  refine ⟨words ++ others, List.flatten_append.symm, fun word member => ?_⟩
  rcases List.mem_append.1 member with early | late
  · exact coded word early
  · exact also word late

theorem word_kstar {word : List Symbol} (coded : word ∈ code) : word ∈ code∗ := by
  rw [Language.mem_kstar]
  exact ⟨[word], by simp, by simpa using coded⟩

/-- What follows a coded beginning of a coded stream is coded. -/
theorem append_iff (free : PrefixCode code) (first : stream ∈ code∗) :
    stream ++ rest ∈ code∗ ↔ rest ∈ code∗ := by
  constructor
  · rw [Language.mem_kstar] at first
    obtain ⟨words, rfl, coded⟩ := first
    induction words with
    | nil => exact id
    | cons word words ih =>
        intro whole
        have own := coded word List.mem_cons_self
        apply ih fun other member => coded other (List.mem_cons_of_mem _ member)
        rw [Language.mem_kstar] at whole ⊢
        obtain ⟨others, same, also⟩ := whole
        cases others with
        | nil =>
            have empty : word = [] := by
              have nothing := congrArg List.length same
              simp only [List.flatten_cons, List.length_append, List.flatten_nil,
                List.length_nil] at nothing
              exact List.length_eq_zero_iff.1 (by omega)
            exact absurd (empty ▸ own) free.nonempty
        | cons other others =>
            have second := also other List.mem_cons_self
            have equal : word = other := by
              rw [List.flatten_cons, List.flatten_cons, List.append_assoc] at same
              rcases List.append_eq_append_iff.1 same with ⟨tail, longer, _⟩ | ⟨tail, shorter, _⟩
              · exact free.unique word own other second ⟨tail, longer.symm⟩
              · exact (free.unique other second word own ⟨tail, shorter.symm⟩).symm
            subst equal
            rw [List.flatten_cons, List.flatten_cons, List.append_assoc] at same
            exact ⟨others, List.append_cancel_left same,
              fun later member => also later (List.mem_cons_of_mem _ member)⟩
  · exact append_kstar first

/-- The beginning of a word is coded only when it is empty or the whole word. -/
theorem take_iff (free : PrefixCode code) {word : List Symbol} (coded : word ∈ code)
    (count : Nat) : word.take count ∈ code∗ ↔ count = 0 ∨ word.length ≤ count := by
  constructor
  · intro cut
    rw [Language.mem_kstar] at cut
    obtain ⟨words, same, coded'⟩ := cut
    cases words with
    | nil =>
        left
        have size := congrArg List.length same
        rw [List.length_take, List.flatten_nil, List.length_nil] at size
        have present : word ≠ [] := fun empty => free.nonempty (empty ▸ coded)
        have positive := List.length_pos_iff.2 present
        omega
    | cons first words =>
        right
        have early : first <+: word := by
          apply List.IsPrefix.trans _ (List.take_prefix count word)
          exact ⟨words.flatten, same.symm⟩
        have whole := free.unique first (coded' first List.mem_cons_self) word coded early
        have size := congrArg List.length same
        rw [List.length_take, List.flatten_cons, List.length_append, whole] at size
        omega
  · rintro (rfl | whole)
    · exact Language.nil_mem_kstar _
    · rw [List.take_of_length_le whole]
      exact word_kstar coded

end PrefixCode

end ComputerSystems.Library
