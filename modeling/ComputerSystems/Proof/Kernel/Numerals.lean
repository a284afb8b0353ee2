import ComputerSystems.Library.Numeral
import ComputerSystems.Proof.Kernel.PrintfFormat
import ComputerSystems.Proof.Kernel.TerminalPage

namespace ComputerSystems.Kernel
open ComputerSystems.Library

/-- The bytes from a place on are those of a text. -/
def Spells (s : Nat) (text : List UInt8) (memory : Nat → UInt8) : Prop :=
  ∀ index < text.length, text[index]? = some (memory (s + index))

/-- A string ends with a terminator and has no other. -/
structure HoldsString (s : Nat) (text : List UInt8) (memory : Nat → UInt8) : Prop where
  spells : Spells s text memory
  terminator : memory (s + text.length) = 0
  clean : 0 ∉ text
  short : text.length ≤ scratchSize

section
variable {s : Nat} {text : List UInt8} {memory : Nat → UInt8}

theorem Spells.store (spells : Spells s text memory) (char : UInt8) :
    Spells s (text ++ [char]) (Function.update memory (s + text.length) char) := by
  intro index inside
  rw [List.length_append, List.length_singleton] at inside
  rcases Nat.lt_succ_iff_lt_or_eq.1 inside with earlier | rfl
  · rw [List.getElem?_append_left earlier, Function.update_of_ne (by omega), spells index earlier]
  · rw [List.getElem?_append_right le_rfl, Nat.sub_self, Function.update_self]
    rfl

theorem Spells.congr {other : Nat → UInt8} (spells : Spells s text memory)
    (same : ∀ index < text.length, other (s + index) = memory (s + index)) :
    Spells s text other := by
  intro index inside
  rw [spells index inside, same index inside]

theorem HoldsString.congr {other : Nat → UInt8} (holds : HoldsString s text memory)
    (same : ∀ place, s ≤ place → other place = memory place) : HoldsString s text other := by
  refine ⟨holds.spells.congr fun index _ => same _ (Nat.le_add_right s index), ?_, holds.clean,
    holds.short⟩
  rw [same _ (Nat.le_add_right s _), holds.terminator]

/-- Bytes in front of a string make it longer. -/
theorem HoldsString.prepend {front : List UInt8}
    (holds : HoldsString (s + front.length) text memory) (spells : Spells s front memory)
    (clean : 0 ∉ front) (short : (front ++ text).length ≤ scratchSize) :
    HoldsString s (front ++ text) memory := by
  constructor
  case spells =>
    intro index inside
    rw [List.length_append] at inside
    rcases Nat.lt_or_ge index front.length with early | late
    · rw [List.getElem?_append_left early, spells index early]
    · rw [List.getElem?_append_right late, holds.spells _ (by omega),
        show s + front.length + (index - front.length) = s + index by omega]
  case terminator =>
    rw [List.length_append, ← Nat.add_assoc]
    exact holds.terminator
  case clean =>
    rw [List.mem_append, not_or]
    exact ⟨clean, holds.clean⟩
  case short => exact short

/-- Only the terminator of a string is zero. -/
theorem HoldsString.eq_zero_iff (holds : HoldsString s text memory) {index : Nat}
    (inside : index ≤ text.length) : memory (s + index) = 0 ↔ index = text.length := by
  constructor
  · intro zero
    by_contra different
    have early : index < text.length := by omega
    have char := holds.spells index early
    rw [zero] at char
    exact holds.clean (List.mem_of_getElem? char)
  · rintro rfl
    exact holds.terminator

end

section
variable {s : Nat} {text : List UInt8} {scratch : Scratch} {range : Set Nat}

theorem strlen_holds (holds : HoldsString s text scratch.memory)
    (inside : ∀ index ≤ text.length, s + index ∈ range) :
    (strlen s scratch).1 = text.length ∧ (strlen s scratch).2.memory = scratch.memory ∧
      Confined range scratch (strlen s scratch).2 := by
  obtain ⟨⟨bound, memory, confined⟩, stopped⟩ := whileLoop_rule
    (fun state : Nat × Scratch => state.2.memory (s + state.1) != 0)
    (fun state => (state.1 + 1, (state.2.load (s + state.1)).2))
    (fun state => state.1 ≤ text.length ∧ state.2.memory = scratch.memory ∧
      Confined range scratch state.2)
    (fun state => text.length - state.1)
    (fun state kept running => by
      obtain ⟨bound, memory, confined⟩ := kept
      rw [memory, bne_iff_ne, Ne, holds.eq_zero_iff bound] at running
      refine ⟨⟨by dsimp only; omega, memory, ?_⟩, by dsimp only; omega⟩
      exact confined.trans (Confined.load (inside _ bound) _))
    scratchSize (0, scratch) ⟨Nat.zero_le _, rfl, Confined.refl range scratch⟩
    ((Nat.sub_le _ _).trans holds.short)
  rw [memory, bne_eq_false_iff_eq, holds.eq_zero_iff bound] at stopped
  exact ⟨stopped, memory, confined.trans (Confined.load (inside _ bound) _)⟩

/-- The console after a text. -/
def printed (text : List UInt8) (console : Console) : Console :=
  text.foldl (fun console c => putc c console) console

theorem puts_holds (holds : HoldsString s text scratch.memory)
    (inside : ∀ index ≤ text.length, s + index ∈ range) (console : Console) :
    (puts s scratch console).1 = printed text console ∧
      Confined range scratch (puts s scratch console).2 := by
  obtain ⟨⟨bound, shown, memory, confined⟩, stopped⟩ := whileLoop_rule
    (fun state : Nat × Console × Scratch => state.2.2.memory (s + state.1) != 0)
    (fun state =>
      let loaded := state.2.2.load (s + state.1)
      (state.1 + 1, putc loaded.1 state.2.1, loaded.2))
    (fun state => state.1 ≤ text.length ∧ state.2.1 = printed (text.take state.1) console ∧
      state.2.2.memory = scratch.memory ∧ Confined range scratch state.2.2)
    (fun state => text.length - state.1)
    (fun state kept running => by
      obtain ⟨bound, shown, memory, confined⟩ := kept
      rw [memory, bne_iff_ne, Ne, holds.eq_zero_iff bound] at running
      have char := holds.spells state.1 (by omega)
      refine ⟨⟨by dsimp only; omega, ?_, memory, ?_⟩, by dsimp only; omega⟩
      · dsimp only [Logged.load]
        rw [memory, shown, List.take_add_one, char, printed, printed, List.foldl_append]
        rfl
      · exact confined.trans (Confined.load (inside _ bound) _))
    scratchSize (0, console, scratch) ⟨Nat.zero_le _, rfl, rfl, Confined.refl range scratch⟩
    ((Nat.sub_le _ _).trans holds.short)
  rw [memory, bne_eq_false_iff_eq, holds.eq_zero_iff bound] at stopped
  rw [stopped, List.take_length] at shown
  exact ⟨shown, confined.trans (Confined.load (inside _ bound) _)⟩

/-- The place from which a byte comes when both ends are swapped. -/
def mirrored (length first last index : Nat) : Nat :=
  if index < first ∨ last < index then length - 1 - index else index

/-- The two ends that are swapped so far. -/
structure Reversing (s : Nat) (text : List UInt8) (range : Set Nat) (scratch : Scratch)
    (state : Reversal) : Prop where
  ends : state.first + state.last + 1 = text.length
  bytes : ∀ index < text.length,
    text[mirrored text.length state.first state.last index]? =
      some (state.scratch.memory (s + index))
  outside : ∀ place, s + text.length ≤ place →
    state.scratch.memory place = scratch.memory place
  confined : Confined range scratch state.scratch

theorem swapBytes_reversing (inside : ∀ index ≤ text.length, s + index ∈ range)
    {state : Reversal} (kept : Reversing s text range scratch state)
    (running : state.first < state.last) : Reversing s text range scratch (swapBytes s state) := by
  have ends := kept.ends
  constructor
  case ends =>
    simp only [swapBytes]
    omega
  case bytes =>
    intro index bound
    have front := kept.bytes state.first (by omega)
    have back := kept.bytes state.last (by omega)
    have own := kept.bytes index bound
    rw [mirrored, if_neg (by omega)] at front back
    change text[mirrored text.length (state.first + 1) (state.last - 1) index]? =
      some (Function.update (Function.update state.scratch.memory (s + state.last)
        (state.scratch.memory (s + state.first))) (s + state.first)
          (state.scratch.memory (s + state.last)) (s + index))
    by_cases first : index = state.first
    · rw [first, Function.update_self, ← back, mirrored, if_pos (by omega)]
      congr 1
      omega
    · rw [Function.update_of_ne (by omega)]
      by_cases last : index = state.last
      · rw [last, Function.update_self, ← front, mirrored, if_pos (by omega)]
        congr 1
        omega
      · have outer : (index < state.first + 1 ∨ state.last - 1 < index) ↔
            (index < state.first ∨ state.last < index) := by
          omega
        rw [Function.update_of_ne (by omega), ← own, mirrored, mirrored]
        simp only [outer]
  case outside =>
    intro place beyond
    simp only [swapBytes, Logged.load, Logged.store]
    rw [Function.update_of_ne (by omega), Function.update_of_ne (by omega),
      kept.outside place beyond]
  case confined =>
    have first := inside state.first (by omega)
    have last := inside state.last (by omega)
    exact (((kept.confined.trans (Confined.load last _)).trans (Confined.load first _)).trans
      (Confined.store last _ _)).trans (Confined.store first _ _)

theorem reverseLoop_holds (holds : HoldsString s text scratch.memory) (nonempty : text ≠ [])
    (inside : ∀ index ≤ text.length, s + index ∈ range) :
    HoldsString s text.reverse (reverseLoop s ⟨0, text.length - 1, scratch⟩).scratch.memory ∧
      Confined range scratch (reverseLoop s ⟨0, text.length - 1, scratch⟩).scratch := by
  have positive := List.length_pos_iff.2 nonempty
  have start : Reversing s text range scratch ⟨0, text.length - 1, scratch⟩ := by
    refine ⟨by dsimp only; omega, fun index bound => ?_, fun _ _ => rfl,
      Confined.refl range scratch⟩
    rw [mirrored, if_neg (by dsimp only; omega)]
    exact holds.spells index bound
  obtain ⟨kept, stopped⟩ := whileLoop_rule (fun state : Reversal => state.first < state.last)
    (swapBytes s) (Reversing s text range scratch) (fun state => state.last - state.first)
    (fun state kept running => by
      have order := of_decide_eq_true running
      refine ⟨swapBytes_reversing inside kept order, ?_⟩
      simp only [swapBytes]
      omega)
    scratchSize ⟨0, text.length - 1, scratch⟩ start (by
      have short := holds.short
      dsimp only
      omega)
  have order := of_decide_eq_false stopped
  have ends := kept.ends
  have short := holds.short
  refine ⟨⟨fun index bound => ?_, ?_, ?_, ?_⟩, kept.confined⟩
  · rw [List.length_reverse] at bound
    have byte := kept.bytes index bound
    rw [List.getElem?_reverse bound]
    unfold mirrored at byte
    split_ifs at byte with outer
    · exact byte
    · rw [← show index = text.length - 1 - index by omega]
      exact byte
  · rw [List.length_reverse]
    exact (kept.outside _ le_rfl).trans holds.terminator
  · rw [List.mem_reverse]
    exact holds.clean
  · rw [List.length_reverse]
    exact short

theorem strrev_holds (holds : HoldsString s text scratch.memory) (nonempty : text ≠ [])
    (inside : ∀ index ≤ text.length, s + index ∈ range) :
    HoldsString s text.reverse (strrev s scratch).memory ∧
      Confined range scratch (strrev s scratch) := by
  obtain ⟨length, memory, confined⟩ := strlen_holds holds inside
  have measured : HoldsString s text (strlen s scratch).2.memory := by
    rw [memory]
    exact holds
  obtain ⟨reversed, within⟩ := reverseLoop_holds measured nonempty inside
  unfold strrev
  dsimp only
  rw [length]
  exact ⟨reversed, confined.trans within⟩

/-- The early return saves a loop without rounds. -/
theorem ece391Strrev_eq : ece391Strrev = strrev := by
  funext s scratch
  unfold ece391Strrev strrev
  dsimp only
  split_ifs with short
  · rw [Nat.le_zero.1 short]
    rfl
  · rfl

/-- Both libraries convert a number in the same way. -/
theorem ece391Itoa_eq : ece391Itoa = itoa := by
  unfold ece391Itoa itoa
  rw [ece391Strrev_eq]

end

theorem lookup_eq : ∀ digit < 36, lookup.getD digit 0 = digitChar digit := by
  decide

section
variable {radix value buf : Nat} {scratch : Scratch} {range : Set Nat}

/-- The digits that are written so far, and those that are left. -/
structure Writing (radix value buf : Nat) (range : Set Nat) (scratch : Scratch)
    (taken : List Nat) (state : DigitLoop) : Prop where
  digits : Nat.digits radix value = taken ++ Nat.digits radix state.newval
  place : state.newbuf = buf + taken.length
  spells : Spells buf (taken.map digitChar) state.scratch.memory
  confined : Confined range scratch state.scratch

theorem writeDigit_writing (two : 2 ≤ radix) (large : radix ≤ 36) {taken : List Nat}
    {state : DigitLoop} (kept : Writing radix value buf range scratch taken state)
    (running : 0 < state.newval) (inside : state.newbuf ∈ range) :
    Writing radix value buf range scratch (taken ++ [state.newval % radix])
      (writeDigit radix state) := by
  constructor
  case digits =>
    rw [kept.digits, Nat.digits_def' two running, List.append_assoc]
    rfl
  case place =>
    rw [List.length_append, List.length_singleton, ← Nat.add_assoc, ← kept.place]
    rfl
  case spells =>
    have small : state.newval % radix < 36 := by
      have below := Nat.mod_lt state.newval (show 0 < radix by omega)
      omega
    have stored := kept.spells.store (digitChar (state.newval % radix))
    rw [List.length_map, ← kept.place, ← lookup_eq _ small] at stored
    rw [List.map_append, List.map_singleton, ← lookup_eq _ small]
    exact stored
  case confined => exact kept.confined.trans (Confined.store inside _ _)

/-- The loop writes all digits, the lowest first. -/
theorem writeDigits_writing (two : 2 ≤ radix) (large : radix ≤ 36)
    (size : (Nat.digits radix value).length ≤ 32)
    (inside : ∀ index < 33, buf + index ∈ range) :
    Writing radix value buf range scratch (Nat.digits radix value)
      (whileLoop (fun state : DigitLoop => 0 < state.newval) (writeDigit radix) 32
        ⟨value, buf, scratch⟩) := by
  obtain ⟨⟨taken, kept⟩, stopped⟩ := whileLoop_rule (fun state : DigitLoop => 0 < state.newval)
    (writeDigit radix) (fun state => ∃ taken, Writing radix value buf range scratch taken state)
    (fun state => (Nat.digits radix state.newval).length)
    (fun state kept running => by
      obtain ⟨taken, kept⟩ := kept
      have positive := of_decide_eq_true running
      have total := congrArg List.length kept.digits
      rw [Nat.digits_def' two positive, List.length_append, List.length_cons] at total
      have place := kept.place
      refine ⟨⟨_, writeDigit_writing two large kept positive ?_⟩, ?_⟩
      · rw [place]
        exact inside _ (by omega)
      · rw [Nat.digits_def' two positive]
        exact Nat.lt_succ_self _)
    32 ⟨value, buf, scratch⟩
    ⟨[], rfl, rfl, fun index none => absurd none (Nat.not_lt_zero index),
      Confined.refl range scratch⟩ size
  have finished := Nat.eq_zero_of_not_pos (of_decide_eq_false stopped)
  have digits := kept.digits
  rw [finished, Nat.digits_zero, List.append_nil] at digits
  rw [digits]
  exact kept

end

section
variable {radix buf : Nat} {scratch : Scratch} {range : Set Nat}

/-- A conversion leaves the numeral of its value, within 33 bytes from the buffer on. -/
theorem itoa_holds (value : BitVec 32) (two : 2 ≤ radix) (large : radix ≤ 36)
    (inside : ∀ index < 33, buf + index ∈ range) :
    HoldsString buf (numeral radix value.toNat) (itoa value buf radix scratch).memory ∧
      Confined range scratch (itoa value buf radix scratch) := by
  have short : (numeral radix value.toNat).length ≤ 32 :=
    numeral_length_le two (by decide) (value.isLt.trans_le (Nat.pow_le_pow_left two 32))
  have clean : 0 ∉ numeral radix value.toNat := fun zero =>
    numeral_ne_zero two large zero rfl
  unfold itoa itoaWith
  split_ifs with zero
  · have text : numeral radix value.toNat = [48] := by
      rw [zero]
      rfl
    have empty : Spells buf [] scratch.memory := fun index none =>
      absurd none (Nat.not_lt_zero index)
    have spells : Spells buf [48] ((scratch.store buf 48).store (buf + 1) 0).memory := by
      apply (empty.store 48).congr
      intro index low
      exact Function.update_of_ne (by simp at low; omega) _ _
    rw [text] at clean short ⊢
    refine ⟨⟨spells, Function.update_self .., clean, by decide⟩, ?_⟩
    exact (Confined.store (inside 0 (by decide)) _ _).trans
      (Confined.store (inside 1 (by decide)) _ _)
  · have positive : value.toNat ≠ 0 := fun none => zero (BitVec.eq_of_toNat_eq none)
    have text : numeral radix value.toNat =
        ((Nat.digits radix value.toNat).map digitChar).reverse :=
      if_neg positive
    rw [text] at clean short ⊢
    rw [List.length_reverse, List.length_map] at short
    rw [List.mem_reverse] at clean
    have written : Writing radix value.toNat buf range scratch _ _ :=
      writeDigits_writing two large short inside
    generalize whileLoop _ (writeDigit radix) 32 _ = state at written
    have place : state.newbuf = buf + ((Nat.digits radix value.toNat).map digitChar).length := by
      rw [List.length_map]
      exact written.place
    have holds : HoldsString buf ((Nat.digits radix value.toNat).map digitChar)
        (state.scratch.store state.newbuf 0).memory := by
      refine ⟨written.spells.congr fun index low => ?_, ?_, clean, ?_⟩
      · exact Function.update_of_ne (by omega) _ _
      · rw [← place]
        exact Function.update_self ..
      · rw [List.length_map]
        exact short.trans (by decide)
    have stored : Confined range scratch (state.scratch.store state.newbuf 0) := by
      apply written.confined.trans
      apply Confined.store
      rw [written.place]
      exact inside _ (by omega)
    obtain ⟨reversed, within⟩ := strrev_holds holds
      (by simpa [Nat.digits_eq_nil_iff_eq_zero] using positive) fun index low => by
        rw [List.length_map] at low
        exact inside index (by omega)
    exact ⟨reversed, stored.trans within⟩

end

/-- The places of a buffer of `size` bytes. -/
def places (buf size : Nat) : Set Nat := {place | buf ≤ place ∧ place < buf + size}

/-- A converted number is printed as its numeral. -/
theorem puts_itoa (value : BitVec 32) (buf : Nat) {radix : Nat} (two : 2 ≤ radix)
    (large : radix ≤ 36) (scratch : Scratch) (console : Console) :
    (puts buf (itoa value buf radix scratch) console).1 =
      printed (numeral radix value.toNat) console := by
  have everywhere (place : Nat) : place ∈ Set.univ := Set.mem_univ place
  obtain ⟨holds, _⟩ : _ ∧ Confined Set.univ scratch _ :=
    itoa_holds value two large fun _ _ => everywhere _
  exact (puts_holds holds (fun _ _ => everywhere _) console).1

/-- The text of a signed number has a sign in front of the numeral of its size. -/
def signedNumeral (value : Int) : List UInt8 :=
  if value < 0 then 45 :: numeral 10 value.natAbs else numeral 10 value.natAbs

/-- Eight digits with zeros in front. -/
def paddedNumeral (value : Nat) : List UInt8 :=
  List.replicate (8 - (numeral 16 value).length) 48 ++ numeral 16 value

theorem natAbs_of_negative {value : BitVec 32} (negative : value.toInt < 0) :
    (-value).toNat = value.toInt.natAbs := by
  have size := value.isLt
  rw [BitVec.toInt_eq_toNat_cond] at negative ⊢
  rw [BitVec.toNat_neg]
  split_ifs at negative ⊢
  · omega
  · omega

theorem natAbs_of_not_negative {value : BitVec 32} (positive : ¬ value.toInt < 0) :
    value.toNat = value.toInt.natAbs := by
  have size := value.isLt
  rw [BitVec.toInt_eq_toNat_cond] at positive ⊢
  split_ifs at positive ⊢
  · omega
  · omega

theorem printSigned_eq (value : BitVec 32) (scratch : Scratch) (console : Console) :
    (printSigned value scratch console).1 = printed (signedNumeral value.toInt) console := by
  unfold printSigned signedNumeral
  split_ifs with negative
  · rw [← natAbs_of_negative negative]
    obtain ⟨holds, confined⟩ : _ ∧ Confined {place | 1 ≤ place} (scratch.store 0 45) _ :=
        itoa_holds (-value) (show 2 ≤ 10 by decide) (by decide) fun index _ =>
        Nat.le_add_right 1 index
    have short : (numeral 10 (-value).toNat).length ≤ 32 :=
      numeral_length_le (by decide) (by decide) ((-value).isLt.trans (by decide))
    have sign : Spells 0 [45] (itoa (-value) 1 10 (scratch.store 0 45)).memory := by
      intro index inside
      obtain rfl := Nat.lt_one_iff.1 inside
      rw [confined.outside (0 + 0) (by simp)]
      rfl
    have signed := HoldsString.prepend holds sign (by decide)
      (Nat.le_trans (Nat.succ_le_succ short) (by decide))
    obtain ⟨shown, _⟩ : _ ∧ Confined Set.univ _ _ :=
      puts_holds signed (fun _ _ => Set.mem_univ _) console
    exact shown
  · rw [← natAbs_of_not_negative negative]
    exact puts_itoa value 0 (by decide) (by decide) scratch console

/-- The zeros and the digits lie side by side in the buffer. -/
theorem printAlternate_eq (value : BitVec 32) (scratch : Scratch) (console : Console) :
    (printAlternate value scratch console).1 = printed (paddedNumeral value.toNat) console ∧
      Confined (places 0 64) scratch (printAlternate value scratch console).2 := by
  have inside (place : Nat) (low : place < 64) : place ∈ places 0 64 := ⟨Nat.zero_le _, by omega⟩
  obtain ⟨holds, confined⟩ : _ ∧ Confined (places 0 64) scratch _ :=
    itoa_holds value (show 2 ≤ 16 by decide) (by decide) fun index low =>
      inside (8 + index) (by omega)
  have short : (numeral 16 value.toNat).length ≤ 8 :=
    numeral_length_le (by decide) (by decide) (value.isLt.trans_le (by decide))
  obtain ⟨length, memory, measured⟩ := strlen_holds holds fun index low => inside _ (by omega)
  unfold printAlternate
  dsimp only
  generalize strlen 8 (itoa value 8 16 scratch) = startingIndex at length memory measured
  obtain ⟨⟨low, high, zeros, digits, padded⟩, stopped⟩ := whileLoop_rule
    (fun state : Nat × Scratch => state.1 < 8)
    (fun state => (state.1 + 1, state.2.store state.1 48))
    (fun state => startingIndex.1 ≤ state.1 ∧ state.1 ≤ 8 ∧
      (∀ place, startingIndex.1 ≤ place → place < state.1 → state.2.memory place = 48) ∧
      (∀ place, 8 ≤ place → state.2.memory place = startingIndex.2.memory place) ∧
      Confined (places 0 64) startingIndex.2 state.2)
    (fun state => 8 - state.1)
    (fun state kept running => by
      obtain ⟨low, high, zeros, digits, padded⟩ := kept
      have early := of_decide_eq_true running
      refine ⟨⟨by dsimp only; omega, early, fun place first last => ?_, fun place beyond => ?_,
        padded.trans (Confined.store (inside _ (by omega)) _ _)⟩, by dsimp only; omega⟩
      · dsimp only [Logged.store]
        rw [Function.update_apply]
        split_ifs with here
        · rfl
        · exact zeros place first (by dsimp only at last; omega)
      · dsimp only [Logged.store]
        rw [Function.update_of_ne (by omega), digits place beyond])
    8 startingIndex ⟨le_rfl, by omega, fun place first last => by omega, fun _ _ => rfl,
      Confined.refl _ _⟩ (Nat.sub_le _ _)
  generalize whileLoop _ _ 8 startingIndex = state at low high zeros digits padded stopped
  have finished : state.1 = 8 := le_antisymm high (Nat.not_lt.1 (of_decide_eq_false stopped))
  have upper : HoldsString 8 (numeral 16 value.toNat) state.2.memory :=
    holds.congr fun place beyond => by rw [digits place beyond, memory]
  have lower : Spells startingIndex.1 (List.replicate (8 - startingIndex.1) 48)
      state.2.memory := by
    intro index bound
    rw [List.length_replicate] at bound
    rw [List.getElem?_replicate, if_pos bound, zeros _ (Nat.le_add_right _ _) (by omega)]
  have whole : HoldsString startingIndex.1 (paddedNumeral value.toNat) state.2.memory := by
    unfold paddedNumeral
    rw [← length]
    apply HoldsString.prepend _ lower
    · intro zero
      exact absurd (List.eq_of_mem_replicate zero) (by decide)
    · rw [List.length_append, List.length_replicate, ← length]
      simp only [scratchSize]
      omega
    · rw [List.length_replicate, show startingIndex.1 + (8 - startingIndex.1) = 8 by omega]
      exact upper
  have size : (paddedNumeral value.toNat).length = 8 := by
    rw [paddedNumeral, List.length_append, List.length_replicate]
    omega
  obtain ⟨shown, read⟩ := puts_holds whole (fun index bound => inside _ (by omega)) console
  exact ⟨shown, confined.trans (measured.trans (padded.trans read))⟩

theorem readNumeral_padded (value : BitVec 32) :
    readNumeral 16 (paddedNumeral value.toNat) = value.toNat := by
  have zeros (count : Nat) : readNumeral 16 (List.replicate count 48) = 0 := by
    induction count with
    | zero => rfl
    | succ count inductionHypothesis =>
        rw [List.replicate_succ', readNumeral_append, inductionHypothesis]
        rfl
  rw [paddedNumeral, readNumeral_append, zeros]
  exact readNumeral_numeral (by decide) (by decide)

/-- Both conversions write one string: a numeral without a leading zero that reads back, within 33
bytes. -/
structure ItoaFaithful (value : BitVec 32) (radix buf : Nat) (scratch : Scratch) : Prop where
  same : ece391Itoa value buf radix scratch = itoa value buf radix scratch
  string : HoldsString buf (numeral radix value.toNat) (itoa value buf radix scratch).memory
  size : (numeral radix value.toNat).length + 1 ≤ 33
  within : Confined (places buf 33) scratch (itoa value buf radix scratch)
  leading : (numeral radix value.toNat).head? = some 48 → numeral radix value.toNat = [48]
  digits : ∀ char ∈ numeral radix value.toNat, ∃ digit < radix, char = lookup.getD digit 0
  reads : readNumeral radix (numeral radix value.toNat) = value.toNat

/-- One round of `printf` writes a text for one argument at the cursor of the active terminal, and
the terminal shows it on its page. -/
def Prints (call : PrintCall) (state : Printing) (text : List UInt8) : Prop :=
  let index := state.console.activeTerminalIndex
  let characters := text.map fun char => (char, attrib)
  ∃ next, printfRound call state = .inr next ∧ next.mode = .text ∧ next.esp = state.esp + 1 ∧
    next.console = characters.foldl (putCharacter index) state.console ∧
    ∀ before page, OnPage before state.console index page →
      ShowsPage before next.console.video (next.console.terminals index)
        (characters.foldl (fun page character => page.putc character.1 character.2) page)

/-- The conversions of `printf` print numerals. The padded one stays in its buffer. -/
structure ConversionsFaithful (call : PrintCall) (state : Printing) : Prop where
  unsigned : ∀ alternate, state.mode = .conversion alternate → call.format state.buf = 117 →
    Prints call state (numeral 10 (call.arguments state.esp).toNat)
  hexadecimal : state.mode = .conversion false → call.format state.buf = 120 →
    Prints call state (numeral 16 (call.arguments state.esp).toNat)
  padded : state.mode = .conversion true → call.format state.buf = 120 →
    Prints call state (paddedNumeral (call.arguments state.esp).toNat)
  paddedSize : (paddedNumeral (call.arguments state.esp).toNat).length = 8
  paddedDigits : ∀ char ∈ paddedNumeral (call.arguments state.esp).toNat,
    ∃ digit < 16, char = lookup.getD digit 0
  paddedReads : readNumeral 16 (paddedNumeral (call.arguments state.esp).toNat) =
    (call.arguments state.esp).toNat
  within : ∀ (scratch : Scratch) (console : Console), Confined (places 0 64) scratch
    (printAlternate (call.arguments state.esp) scratch console).2
  signed : ∀ alternate, state.mode = .conversion alternate → call.format state.buf = 100 →
    Prints call state (signedNumeral (call.arguments state.esp).toInt)

theorem numeral_lookup {radix value : Nat} (two : 2 ≤ radix) (large : radix ≤ 36) {char : UInt8}
    (member : char ∈ numeral radix value) : ∃ digit < radix, char = lookup.getD digit 0 := by
  obtain ⟨digit, small, rfl⟩ := numeral_digit two member
  exact ⟨digit, small, (lookup_eq digit (by omega)).symm⟩

theorem itoa_faithful (value : BitVec 32) {radix : Nat} (two : 2 ≤ radix) (large : radix ≤ 36)
    (buf : Nat) (scratch : Scratch) : ItoaFaithful value radix buf scratch := by
  obtain ⟨holds, within⟩ : _ ∧ Confined (places buf 33) scratch _ :=
    itoa_holds value two large fun index low => ⟨Nat.le_add_right buf index, by omega⟩
  constructor
  case same => rw [ece391Itoa_eq]
  case string => exact holds
  case size =>
    have size : (numeral radix value.toNat).length ≤ 32 :=
      numeral_length_le two (by decide) (value.isLt.trans_le (Nat.pow_le_pow_left two 32))
    omega
  case within => exact within
  case leading => exact numeral_head two large
  case digits => exact fun char => numeral_lookup two large
  case reads => exact readNumeral_numeral two large

/-- All characters of a text go to the terminal that is active before the first. -/
theorem printed_eq (text : List UInt8) (console : Console) :
    printed text console = (text.map fun char => (char, attrib)).foldl
      (putCharacter console.activeTerminalIndex) console := by
  induction text generalizing console with
  | nil => rfl
  | cons char rest inductionHypothesis =>
      have same : (putc char console).activeTerminalIndex = console.activeTerminalIndex :=
        terminalPutc_active char attrib console.activeTerminalIndex console
      have later := inductionHypothesis (putc char console)
      rw [same] at later
      exact later

/-- A round at a letter prints what the conversion of the letter prints. -/
theorem prints_of_convert {call : PrintCall} {state : Printing} {alternate : Bool}
    {letter : UInt8} {text : List UInt8} (mode : state.mode = .conversion alternate)
    (format : call.format state.buf = letter) (different : letter ≠ 35)
    (moved : (convert call letter alternate state).esp = state.esp + 1)
    (shown : (convert call letter alternate state).console = printed text state.console) :
    Prints call state text := by
  rw [printed_eq] at shown
  refine ⟨{ convert call letter alternate state with
    mode := .text
    buf := state.buf + 1
    read := state.buf :: state.read }, ?_, rfl, moved, shown, fun before page onPage => ?_⟩
  · unfold printfRound
    rw [mode, format]
    dsimp only
    rw [if_neg different]
  · dsimp only
    rw [shown]
    exact (onPage.run _).showsPage

theorem conversions_faithful (call : PrintCall) (state : Printing) :
    ConversionsFaithful call state := by
  have short : (numeral 16 (call.arguments state.esp).toNat).length ≤ 8 :=
    numeral_length_le (by decide) (by decide)
      ((call.arguments state.esp).isLt.trans_le (by decide))
  constructor
  case unsigned =>
    intro alternate mode letter
    apply prints_of_convert mode letter (by decide) rfl
    exact puts_itoa _ 0 (by decide) (by decide) _ _
  case hexadecimal =>
    intro mode letter
    apply prints_of_convert mode letter (by decide) rfl
    exact puts_itoa _ 0 (by decide) (by decide) _ _
  case padded =>
    intro mode letter
    apply prints_of_convert mode letter (by decide) rfl
    unfold convert
    dsimp only
    rw [if_neg (by decide), if_pos rfl]
    dsimp only
    rw [if_pos rfl]
    exact (printAlternate_eq _ _ _).1
  case signed =>
    intro alternate mode letter
    apply prints_of_convert mode letter (by decide) rfl
    exact printSigned_eq _ _ _
  case paddedSize =>
    rw [paddedNumeral, List.length_append, List.length_replicate]
    omega
  case paddedDigits =>
    intro char member
    rcases List.mem_append.1 member with zero | digit
    · exact ⟨0, by decide, List.eq_of_mem_replicate zero⟩
    · exact numeral_lookup (by decide) (by decide) digit
  case paddedReads => exact readNumeral_padded _
  case within => exact fun scratch console => (printAlternate_eq _ scratch console).2

/-- Numbers are formatted faithfully for every value and every radix. -/
theorem numbers_faithful (value : BitVec 32) {radix : Nat} (two : 2 ≤ radix) (large : radix ≤ 36)
    (buf : Nat) (scratch : Scratch) (call : PrintCall) (state : Printing) :
    ItoaFaithful value radix buf scratch ∧ ConversionsFaithful call state :=
  ⟨itoa_faithful value two large buf scratch, conversions_faithful call state⟩

/-- The argument 7 appears in the first cell of a clear screen. -/
theorem numbers_faithful_binary :
    let clear : Printing := ⟨.conversion false, 1, 0, clearTerminal 0 coldMachine.console, []⟩
    ItoaFaithful 6 2 0 ⟨fun _ => 0, []⟩ ∧
      ConversionsFaithful (sampleCall [37, 117, 0]) clear ∧
      ∃ next, printfRound (sampleCall [37, 117, 0]) clear = .inr next ∧
        cellAt next.console.video (next.console.terminals 0).videoStart 0 = (55, attrib) := by
  intro clear
  have faithful : ItoaFaithful 6 2 0 ⟨fun _ => 0, []⟩ ∧
      ConversionsFaithful (sampleCall [37, 117, 0]) clear :=
    numbers_faithful 6 (by decide) (by decide) 0 _ _ _
  refine ⟨faithful.1, faithful.2, ?_⟩
  obtain ⟨next, round, _, _, _, shows⟩ := faithful.2.unsigned false rfl rfl
  refine ⟨next, round, ?_⟩
  have cell := (shows _ _ (OnPage.clear 0 coldMachine.console)).cells 0 (by decide) 0 (by decide)
  have seven : numeral 10 ((sampleCall [37, 117, 0]).arguments clear.esp).toNat = [55] := by decide
  rw [seven] at cell
  exact cell

end ComputerSystems.Kernel
