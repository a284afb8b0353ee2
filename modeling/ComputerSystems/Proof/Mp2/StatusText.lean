import ComputerSystems.Proof.Mp2.StatusBar

namespace ComputerSystems.Mp2

open Library Chars

/-- The time in the status bar. -/
def timeText (tick : Nat) : List UInt8 :=
  zeroPadded (tick / 32 / 60) ++ ascii ":" ++ zeroPadded (tick / 32 % 60)

def fruitWord (froot : Nat) : List UInt8 := if froot = 1 then ascii " fruit" else ascii " fruits"

/-- The text of the status bar. -/
def barText (lvl tick froot : Nat) : List UInt8 :=
  ascii "Level " ++ numeral 10 lvl ++ ascii "    " ++ numeral 10 froot ++ fruitWord froot ++
    ascii "    " ++ timeText tick

theorem numeral_clean (value : Nat) : 0 ∉ numeral 10 value := fun member =>
  numeral_ne_zero (by decide) (by decide) member rfl

theorem zeroPadded_clean (value : Nat) : 0 ∉ zeroPadded value := by
  rw [zeroPadded]
  split_ifs
  · rw [List.mem_cons, not_or]
    exact ⟨by decide, numeral_clean value⟩
  · exact numeral_clean value

theorem timeText_clean (tick : Nat) : 0 ∉ timeText tick := by
  have colon : (0 : UInt8) ∉ ascii ":" := by decide
  simp only [timeText, List.mem_append, not_or]
  exact ⟨⟨zeroPadded_clean _, colon⟩, zeroPadded_clean _⟩

theorem fruitWord_clean (froot : Nat) : 0 ∉ fruitWord froot := by
  rw [fruitWord]
  split_ifs <;> decide

/-- The arrays of `show_status` hold their texts. -/
structure StatusText.Holding (lvl tick froot : Nat) (text : StatusText) : Prop where
  levlen : text.levlen = if lvl < 10 then 2 else 3
  frootilen : text.frootilen = if froot < 10 then 2 else 3
  wordlength : text.wordlength =
    6 + text.levlen + 8 + (fruitWord froot).length + text.frootilen + 6
  level : Holds (numeral 10 lvl) text.level
  frooti : Holds (numeral 10 froot) text.frooti
  tiempo : Holds (timeText tick) text.tiempo
  words : Holds (barText lvl tick froot) text.words

theorem statusText_holding {fuel lvl tick froot : Nat} (unset : Nat → UInt8)
    (enough : (barText lvl tick froot).length < fuel) :
    ∃ text, statusText fuel unset lvl tick froot = some text ∧ text.Holding lvl tick froot := by
  have spaces : (0 : UInt8) ∉ ascii "    " := by decide
  have word : (0 : UInt8) ∉ ascii "Level " := by decide
  simp only [barText, List.length_append] at enough
  obtain ⟨_, titled, first, named⟩ := strcpy_holds fuel unset word (by omega)
  have numbered := sprintf_holds unset (numeral_clean lvl)
  have counted := sprintf_holds unset (numeral_clean froot)
  have timed := sprintf_holds unset (timeText_clean tick)
  obtain ⟨level, withLevel, second, levelRead, levelled⟩ :=
    named.strcat fuel numbered.stored numbered.clean (by omega) (by omega)
  obtain ⟨_, spaced, third, _, separated⟩ :=
    levelled.strcat fuel (literal_hasText (ascii "    ")) spaces
      (by simp only [List.length_append]; omega) (by omega)
  obtain ⟨frooti, withCount, fourth, countRead, fruited⟩ :=
    separated.strcat fuel counted.stored counted.clean
      (by simp only [List.length_append]; omega) (by omega)
  obtain ⟨_, withWord, fifth, _, worded⟩ :=
    fruited.strcat fuel (literal_hasText (fruitWord froot)) (fruitWord_clean froot)
      (by simp only [List.length_append]; omega) (by omega)
  obtain ⟨_, spacedAgain, sixth, _, again⟩ :=
    worded.strcat fuel (literal_hasText (ascii "    ")) spaces
      (by simp only [List.length_append]; omega) (by omega)
  obtain ⟨tiempo, whole, seventh, timeRead, complete⟩ :=
    again.strcat fuel timed.stored timed.clean (by simp only [List.length_append]; omega) (by omega)
  refine ⟨⟨if lvl < 10 then 2 else 3, if froot < 10 then 2 else 3,
    6 + (if lvl < 10 then 2 else 3) + 8 + (fruitWord froot).length +
      (if froot < 10 then 2 else 3) + 6, level, frooti, tiempo, whole⟩, ?_,
    ⟨rfl, rfl, rfl, numbered.reads levelRead, counted.reads countRead, timed.reads timeRead,
      complete⟩⟩
  rw [timeText] at seventh
  rw [fruitWord] at fifth
  simp only [statusText, first, second, third, fourth, fifth, sixth, seventh, Option.bind_eq_bind,
    Option.bind_some]
  rfl

/-- A padded number has two characters up to 99. -/
theorem zeroPadded_length_le_iff {value bound : Nat} (two : 2 ≤ bound) :
    (zeroPadded value).length ≤ bound ↔ value < 10 ^ bound := by
  have large : 10 ≤ 10 ^ bound := Nat.le_self_pow (by omega) 10
  have single : (numeral 10 value).length ≤ 1 ↔ value < 10 ^ 1 :=
    numeral_length_le_iff (by decide) (by decide)
  rw [zeroPadded]
  split_ifs with small
  · rw [List.length_cons]
    exact iff_of_true (by have := single.2 (by omega); omega) (by omega)
  · exact numeral_length_le_iff (by decide) (by omega)

theorem zeroPadded_length_ge (value : Nat) : 2 ≤ (zeroPadded value).length := by
  have single : (numeral 10 value).length ≤ 1 ↔ value < 10 ^ 1 :=
    numeral_length_le_iff (by decide) (by decide)
  rw [zeroPadded]
  split_ifs with small
  · have positive := numeral_length_pos 10 value
    rw [List.length_cons]
    omega
  · omega

/-- The characters of the time without those of its minutes. -/
theorem timeText_length (tick : Nat) :
    (timeText tick).length = (zeroPadded (tick / 32 / 60)).length + 3 := by
  have rest : tick / 32 % 60 < 10 ^ 2 := by omega
  have upper := (zeroPadded_length_le_iff le_rfl).2 rest
  have lower := zeroPadded_length_ge (tick / 32 % 60)
  have colon : (ascii ":").length = 1 := by decide
  simp only [timeText, List.length_append]
  omega

/-- The time fits its array below 100 minutes. -/
theorem timeText_fits_iff (tick : Nat) : (timeText tick).length < tiempoSize ↔ tick < 192000 := by
  have minutes : (zeroPadded (tick / 32 / 60)).length ≤ 2 ↔ tick / 32 / 60 < 10 ^ 2 :=
    zeroPadded_length_le_iff le_rfl
  rw [timeText_length]
  dsimp only [tiempoSize]
  omega

theorem fruitWord_length (froot : Nat) : (fruitWord froot).length ≤ 7 := by
  rw [fruitWord]
  split_ifs <;> decide

/-- The level and the number of fruits fit their arrays. -/
theorem numeral_fits {value : Nat} (small : value ≤ 99) :
    (numeral 10 value).length < if value < 10 then 2 else 3 := by
  split_ifs with single
  · exact Nat.lt_succ_of_le (numeral_length_le (by decide) Nat.one_pos single)
  · exact Nat.lt_succ_of_le (numeral_length_le (by decide) Nat.two_pos (by omega))

theorem barText_length (lvl tick froot : Nat) : (barText lvl tick froot).length =
    (numeral 10 lvl).length + (numeral 10 froot).length + (fruitWord froot).length +
      (zeroPadded (tick / 32 / 60)).length + 17 := by
  have title : (ascii "Level ").length = 6 := by decide
  have spaces : (ascii "    ").length = 4 := by decide
  simp only [barText, List.length_append, timeText_length]
  omega

/-- All accesses of the text stay inside its arrays, and all writes of the picture inside the draw
buffer. -/
structure StatusBar.Within (status : StatusBar) : Prop where
  level : ∀ place ∈ status.text.level.touched, place < status.text.levlen
  frooti : ∀ place ∈ status.text.frooti.touched, place < status.text.frootilen
  tiempo : ∀ place ∈ status.text.tiempo.touched, place < tiempoSize
  words : ∀ place ∈ status.text.words.touched, place < status.text.wordlength
  drawbuf : ∀ place ∈ status.drawbuf.touched, place ∈ bar

theorem barText_short {lvl tick froot : Nat} (last : lvl ≤ 10) (few : froot ≤ 99)
    (ticks : tick < 2 ^ 31) : (barText lvl tick froot).length ≤ 35 := by
  have level := numeral_fits (last.trans (show 10 ≤ 99 by decide))
  have fruits := numeral_fits few
  have word := fruitWord_length froot
  have minutes : (zeroPadded (tick / 32 / 60)).length ≤ 7 :=
    (zeroPadded_length_le_iff (by decide)).2 (by omega)
  rw [barText_length]
  split_ifs at level fruits <;> omega

/-- `show_status` writes its texts and draws a picture inside the draw buffer. -/
theorem showStatus_spec (font : Int → Nat → UInt8) {fuel lvl tick froot : Nat}
    (last : lvl ≤ 10) (few : froot ≤ 99) (ticks : tick < 2 ^ 31) (enough : 64 ≤ fuel)
    (unset : Nat → UInt8) (drawbuf : DrawBuf) (plane : Nat → Nat → UInt8) (video : Video) :
    ∃ status, showStatus font fuel unset lvl tick froot drawbuf plane video = some status ∧
      status.text.Holding lvl tick froot ∧ Confined bar drawbuf status.drawbuf := by
  have short := barText_short last few ticks
  obtain ⟨text, made, holding⟩ := @statusText_holding fuel lvl tick froot unset (by omega)
  obtain ⟨words, found, reads⟩ := strend_spec holding.words.stored holding.words.clean
    (show (barText lvl tick froot).length < fuel by omega)
  have drawn := @strbuff_confined font
    ((List.range (0 + (barText lvl tick froot).length)).map words.memory) lvl
    (by rw [List.length_map, List.length_range]; omega) drawbuf
  have result : ∃ planes copied,
      showStatus font fuel unset lvl tick froot drawbuf plane video =
        some ⟨{ text with words := words }, strbuff font
          ((List.range (0 + (barText lvl tick froot).length)).map words.memory) lvl drawbuf,
          planes, copied⟩ := by
    rw [showStatus, made]
    simp only [Option.bind_eq_bind, Option.bind_some, found]
    exact ⟨_, _, rfl⟩
  obtain ⟨planes, copied, shown⟩ := result
  refine ⟨_, shown, ?_, drawn⟩
  exact ⟨holding.levlen, holding.frootilen, holding.wordlength, holding.level, holding.frooti,
    holding.tiempo, holding.words.reads reads⟩

/-- The arrays suffice exactly below 100 minutes. -/
theorem StatusText.Holding.within_iff {status : StatusBar} {lvl tick froot : Nat}
    (holding : status.text.Holding lvl tick froot) (last : lvl ≤ 10) (few : froot ≤ 99)
    (drawn : ∀ place ∈ status.drawbuf.touched, place ∈ bar) :
    status.Within ↔ tick < 192000 := by
  obtain ⟨levlen, frootilen, wordlength, level, frooti, tiempo, words⟩ := holding
  have levelFits := numeral_fits (last.trans (show 10 ≤ 99 by decide))
  have fruitsFit := numeral_fits few
  rw [← levlen] at levelFits
  rw [← frootilen] at fruitsFit
  constructor
  · exact fun within => (timeText_fits_iff tick).1 ((tiempo.below_iff tiempoSize).1 within.tiempo)
  · intro early
    have time := (timeText_fits_iff tick).2 early
    refine ⟨(level.below_iff _).2 levelFits, (frooti.below_iff _).2 fruitsFit,
      (tiempo.below_iff _).2 time, (words.below_iff _).2 ?_, drawn⟩
    rw [timeText_length] at time
    rw [barText_length, wordlength]
    dsimp only [tiempoSize] at time
    omega

/-- For every level, number of fruits and number of ticks, all strings of `show_status` stay in
their arrays and all pixels in the draw buffer exactly when the ticks are less than 100 minutes. -/
theorem showStatus_within_iff (font : Int → Nat → UInt8) {fuel lvl tick froot : Nat}
    (last : lvl ≤ 10) (few : froot ≤ 99) (ticks : tick < 2 ^ 31) (enough : 64 ≤ fuel)
    (unset : Nat → UInt8) (pixels : Int × Int → UInt8) (plane : Nat → Nat → UInt8)
    (video : Video) :
    ∃ status, showStatus font fuel unset lvl tick froot ⟨pixels, []⟩ plane video = some status ∧
      (status.Within ↔ tick < 192000) := by
  obtain ⟨status, shown, holding, drawn⟩ :=
    showStatus_spec font last few ticks enough unset ⟨pixels, []⟩ plane video
  refine ⟨status, shown, holding.within_iff last few fun place member => ?_⟩
  exact (drawn.touched place member).resolve_left List.not_mem_nil

theorem showStatus_within_iff_start :
    ∃ status, showStatus halves 64 (fun _ => 0xFF) 10 191999 99 ⟨fun _ => 0, []⟩ (fun _ _ => 0)
      blankVideo = some status ∧ status.Within := by
  obtain ⟨status, shown, within⟩ := showStatus_within_iff halves (show 10 ≤ 10 by decide)
    (show 99 ≤ 99 by decide) (show 191999 < 2 ^ 31 by decide) (show 64 ≤ 64 by decide)
    (fun _ => 0xFF) (fun _ => 0) (fun _ _ => 0) blankVideo
  exact ⟨status, shown, within.2 (by decide)⟩

/-- After 100 minutes the terminator of the time is written behind its array. -/
theorem showStatus_overruns :
    ∃ status, showStatus halves 64 (fun _ => 0xFF) 1 192000 0 ⟨fun _ => 0, []⟩ (fun _ _ => 0)
      blankVideo = some status ∧ tiempoSize ∈ status.text.tiempo.touched ∧ ¬ status.Within := by
  obtain ⟨status, shown, holding, _⟩ := showStatus_spec halves (show 1 ≤ 10 by decide)
    (show 0 ≤ 99 by decide) (show 192000 < 2 ^ 31 by decide) (show 64 ≤ 64 by decide)
    (fun _ => 0xFF) ⟨fun _ => 0, []⟩ (fun _ _ => 0) blankVideo
  have behind : tiempoSize ∈ status.text.tiempo.touched := by
    have fits := timeText_fits_iff 192000
    rw [holding.tiempo.touched]
    omega
  exact ⟨status, shown, behind, fun within => absurd (within.tiempo _ behind) (by decide)⟩

end ComputerSystems.Mp2
