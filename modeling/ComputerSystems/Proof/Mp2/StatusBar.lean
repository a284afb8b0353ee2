import ComputerSystems.Construction.Mp2.ShowStatus
import ComputerSystems.Library.Bits
import ComputerSystems.Library.Canvas
import ComputerSystems.Proof.Mp2.ShowScreen

namespace ComputerSystems.Mp2

open Library

/-- The columns in front of a text. -/
def gap (text : List UInt8) : Nat := 8 * (40 - text.length) / 2

/-- The bit of the font for a pixel of a text. -/
def Lit (font : Int → Nat → UInt8) (text : List UInt8) (j x : Nat) : Prop :=
  1 ≤ j ∧ j ≤ 16 ∧ gap text ≤ x ∧ x < gap text + 8 * text.length ∧
    (font (text.getD ((x - gap text) / 8) 0).toNat (j - 1)).toBitVec.getLsbD
      (7 - (x - gap text) % 8) = true

instance (font : Int → Nat → UInt8) (text : List UInt8) (j x : Nat) :
    Decidable (Lit font text j x) := inferInstanceAs (Decidable (_ ∧ _))

/-- The picture of a text in the color of a level. -/
def barPicture (font : Int → Nat → UInt8) (text : List UInt8) (lvl : Nat) (place : Int × Int) :
    UInt8 :=
  if Lit font text place.1.toNat place.2.toNat then on else off lvl

/-- The pixels of the status bar. -/
def bar : Set (Int × Int) :=
  {place | 0 ≤ place.1 ∧ place.1 < heightPix ∧ 0 ≤ place.2 ∧ place.2 < widthPix}

/-- The columns of the status bar in a range. -/
def barColumns (start stop : Int) : Set (Int × Int) :=
  {place | 0 ≤ place.1 ∧ place.1 < heightPix ∧ start ≤ place.2 ∧ place.2 < stop}

section
variable {picture : Int × Int → UInt8} {start stop : Int}

/-- A loop of the source draws the pixels of all its rounds. -/
theorem forRange_paints {body : Int → DrawBuf → DrawBuf} {part : Int → Set (Int × Int)}
    (paints : ∀ i buff, start ≤ i → i < stop →
      Paints buff.memory (body i buff).memory id (part i) picture) (buff : DrawBuf) :
    Paints buff.memory (forRange start stop body buff).memory id
      {place | ∃ i, start ≤ i ∧ i < stop ∧ place ∈ part i} picture := by
  have whole : {place | ∃ i, start ≤ i ∧ i < stop ∧ place ∈ part i} =
      ⋃ done < (stop - start).toNat, part (start + (done : Nat)) := by
    ext place
    simp only [Set.mem_ofPred_eq, Set.mem_iUnion, exists_prop]
    constructor
    · rintro ⟨i, low, high, member⟩
      refine ⟨(i - start).toNat, by omega, ?_⟩
      rwa [Int.toNat_of_nonneg (by omega), add_sub_cancel]
    · rintro ⟨done, early, member⟩
      exact ⟨start + done, by omega, by omega, member⟩
  rw [whole]
  exact Paints.stateLoop Logged.memory buff
    (fun done current early => paints (start + done) current (by omega) (by omega))
    Function.injective_id.injOn

theorem store_paints {place : Int × Int} {value : UInt8} (same : picture place = value)
    (buff : DrawBuf) :
    Paints buff.memory (buff.store place value).memory id {place} picture := by
  rw [← same]
  exact Paints.single buff.memory id place picture

/-- Some columns are filled with the color around the characters. -/
theorem fillColumns_paints (picture : Int × Int → UInt8) {color : UInt8}
    (same : ∀ place ∈ barColumns start stop, picture place = color) (buff : DrawBuf) :
    Paints buff.memory (forRange start stop
      (fun i => forRange 0 heightPix fun j buff => buff.store (j, i) color) buff).memory id
      (barColumns start stop) picture := by
  have whole : barColumns start stop = {place | ∃ i, start ≤ i ∧ i < stop ∧
      place ∈ {place : Int × Int |
        ∃ j : Int, 0 ≤ j ∧ j < heightPix ∧ place ∈ ({(j, i)} : Set (Int × Int))}} := by
    ext ⟨j, i⟩
    simp only [barColumns, Set.mem_ofPred_eq, Set.mem_singleton_iff, Prod.mk.injEq]
    constructor
    · rintro ⟨top, low, left, right⟩
      exact ⟨i, left, right, j, top, low, rfl, rfl⟩
    · rintro ⟨_, left, right, _, top, low, rfl, rfl⟩
      exact ⟨top, low, left, right⟩
  rw [whole]
  refine forRange_paints (fun i buff left right => forRange_paints (fun j buff top low => ?_) buff)
    buff
  exact store_paints (same (j, i) ⟨top, low, left, right⟩) buff

/-- The top and bottom rows. -/
theorem fillRows_paints (picture : Int × Int → UInt8) {color : UInt8}
    (same : ∀ i : Int, 0 ≤ i → i < widthPix → picture (0, i) = color ∧ picture (17, i) = color)
    (buff : DrawBuf) :
    Paints buff.memory (forRange 0 widthPix
      (fun i buff => (buff.store (0, i) color).store (heightPix - 1, i) color) buff).memory id
      {place | ∃ i : Int, 0 ≤ i ∧ i < widthPix ∧ place ∈ ({(0, i)} ∪ {(17, i)} : Set (Int × Int))}
      picture :=
  forRange_paints (fun i buff left right =>
    (store_paints (same i left right).1 buff).trans (store_paints (same i left right).2 _)
      Function.injective_id.injOn) buff

end

/-- The masks of the bits of a byte from the highest on. -/
theorem and_bitmask_iff (byte : UInt8) {k : Nat} (inside : k < 8) :
    byte &&& bitmask.getD k 0 = bitmask.getD k 0 ↔ byte.toBitVec.getLsbD (7 - k) = true := by
  have mask : (bitmask.getD k 0).toBitVec = BitVec.twoPow 8 (7 - k) := by
    interval_cases k <;> rfl
  rw [← and_twoPow_eq_iff byte.toBitVec (show 7 - k < 8 by omega), ← mask, ← UInt8.toBitVec_inj,
    UInt8.toBitVec_and]

/-- The characters below 128 are not negative. -/
theorem toInt8_toInt {char : UInt8} (low : char < 128) : char.toInt8.toInt = char.toNat := by
  have small : char.toBitVec.toNat < 128 := low
  change char.toBitVec.toInt = char.toBitVec.toNat
  exact BitVec.toInt_eq_toNat_of_lt (by omega)

section
variable {font : Int → Nat → UInt8} {text : List UInt8} {lvl : Nat}

/-- The pixel of a character for one bit of one byte of the font. -/
theorem barPicture_char (ascii : ∀ char ∈ text, char < 128) {count d k : Nat}
    (char : count < text.length) (row : d < 16) (bit : k < 8) :
    barPicture font text lvl ((1 + d : Nat), (gap text : Int) + 8 * count + k) =
      if font ((text.map fun char => char.toInt8.toInt).getD count 0) (1 + d - 1) &&&
        bitmask.getD k 0 = bitmask.getD k 0 then on else off lvl := by
  have column : ((gap text : Int) + 8 * count + k).toNat = gap text + 8 * count + k := by omega
  have letter : (text.map fun char => char.toInt8.toInt).getD count 0 =
      (text.getD count 0).toNat := by
    rw [List.getD_eq_getElem?_getD, List.getD_eq_getElem?_getD, List.getElem?_map,
      List.getElem?_eq_getElem char]
    exact toInt8_toInt (ascii _ (List.getElem_mem char))
  have group : (gap text + 8 * count + k - gap text) / 8 = count := by omega
  have rest : (gap text + 8 * count + k - gap text) % 8 = k := by omega
  rw [barPicture, letter]
  dsimp only
  rw [column, Int.toNat_natCast]
  refine if_congr ?_ rfl rfl
  rw [Lit, group, rest, and_bitmask_iff _ bit]
  constructor
  · exact fun lit => lit.2.2.2.2
  · exact fun set => ⟨by omega, by omega, by omega, by omega, set⟩

/-- The pixels of the characters. -/
def letters (text : List UInt8) : Set (Int × Int) :=
  {place | 1 ≤ place.1 ∧ place.1 ≤ 16 ∧ gap text ≤ place.2 ∧
    place.2 < gap text + 8 * text.length}

theorem letters_eq (text : List UInt8) : letters text = ⋃ count < text.length, ⋃ d < 16,
    ⋃ k < 8, {(((1 + d : Nat) : Int), (gap text : Int) + 8 * (count : Nat) + (k : Nat))} := by
  ext ⟨j, x⟩
  simp only [letters, Set.mem_ofPred_eq, Set.mem_iUnion, exists_prop, Set.mem_singleton_iff,
    Prod.mk.injEq]
  constructor
  · rintro ⟨top, low, left, right⟩
    exact ⟨((x - gap text) / 8).toNat, by omega, (j - 1).toNat, by omega,
      ((x - gap text) % 8).toNat, by omega, by omega, by omega⟩
  · rintro ⟨count, char, d, row, k, bit, rfl, rfl⟩
    omega

theorem convasc_paints (ascii : ∀ char ∈ text, char < 128) (buff : DrawBuf) :
    Paints buff.memory (convasc font (off lvl) (text.map fun char => char.toInt8.toInt) (gap text)
      (gap text + text.length * 8) buff).memory id (letters text) (barPicture font text lvl) := by
  have rounds : ((gap text + text.length * 8 - gap text + 7 : Int) / 8).toNat = text.length := by
    omega
  rw [convasc, rounds, letters_eq]
  refine Paints.stateLoop Logged.memory buff (fun count current char => ?_)
    Function.injective_id.injOn
  rw [forLoop_from]
  refine Paints.stateLoop Logged.memory current (fun d current row => ?_)
    Function.injective_id.injOn
  refine Paints.stateLoop Logged.memory current (fun k current bit => ?_)
    Function.injective_id.injOn
  have pixel := @barPicture_char font text lvl ascii count d k char row bit
  dsimp only
  split_ifs with set
  · rw [if_pos set] at pixel
    exact store_paints pixel current
  · rw [if_neg set] at pixel
    exact store_paints pixel current

theorem gap_eq (length : text.length ≤ 40) :
    (8 * (40 - (text.length : Int))).tdiv 2 = gap text := by
  rw [Int.tdiv_eq_ediv_of_nonneg (by omega), gap]
  omega

/-- The pixels that are not lit have the color around the characters. -/
theorem barPicture_off {place : Int × Int} (apart : place ∉ letters text)
    (inside : place ∈ bar) : barPicture font text lvl place = off lvl := by
  obtain ⟨top, low, left, right⟩ := inside
  refine if_neg fun lit => apart ?_
  obtain ⟨first, last, front, back, _⟩ := lit
  exact ⟨by omega, by omega, by omega, by omega⟩

/-- The four regions of the source cover the status bar. -/
theorem strbuff_shows (length : text.length ≤ 40) (ascii : ∀ char ∈ text, char < 128)
    (buff : DrawBuf) :
    Shows (strbuff font text lvl buff).memory id bar (barPicture font text lvl) := by
  have fits : gap text + 8 * text.length ≤ widthPix := by
    dsimp only [gap, widthPix]
    omega
  have around (j i : Int) (inside : (j, i) ∈ bar) (apart : (j, i) ∉ letters text) :
      barPicture font text lvl (j, i) = off lvl := barPicture_off apart inside
  have rows := fillRows_paints (barPicture font text lvl) (fun i left right =>
    ⟨around 0 i ⟨le_rfl, show (0 : Int) < heightPix by decide, left, right⟩ fun member => by
        have first := member.1
        dsimp only at first
        omega,
      around 17 i ⟨show (0 : Int) ≤ 17 by decide, show (17 : Int) < heightPix by decide,
          left, right⟩ fun member => by
        have last := member.2.1
        dsimp only at last
        omega⟩) buff
  have front := fun buff => @fillColumns_paints 0 (gap text) (barPicture font text lvl) (off lvl)
    (fun place inside => around place.1 place.2
      ⟨inside.1, inside.2.1, inside.2.2.1, by have right := inside.2.2.2; omega⟩ fun member => by
        have left := member.2.2.1
        have right := inside.2.2.2
        dsimp only at left
        omega) buff
  have back := fun buff => @fillColumns_paints (gap text + text.length * 8) widthPix
    (barPicture font text lvl) (off lvl)
    (fun place inside => around place.1 place.2
      ⟨inside.1, inside.2.1, by have left := inside.2.2.1; omega, inside.2.2.2⟩ fun member => by
        have left := inside.2.2.1
        have right := member.2.2.2
        dsimp only at right
        omega) buff
  have all := (((rows.trans (front _) Function.injective_id.injOn).trans
    (@convasc_paints font text lvl ascii _) Function.injective_id.injOn).trans (back _)
      Function.injective_id.injOn).shows
  rw [strbuff, gap_eq length]
  refine all.mono fun ⟨j, i⟩ inside => ?_
  obtain ⟨top, low, left, right⟩ := id inside
  dsimp only [heightPix] at top low left right
  by_cases early : i < gap text
  · exact .inl (.inl (.inr ⟨top, low, left, early⟩))
  by_cases late : gap text + text.length * 8 ≤ i
  · exact .inr ⟨top, low, late, right⟩
  by_cases edge : j = 0 ∨ j = 17
  · exact .inl (.inl (.inl ⟨i, left, right, edge.imp (fun same => by rw [same]; rfl)
      fun same => by rw [same]; rfl⟩))
  · exact .inl (.inr ⟨by dsimp only; omega, by dsimp only; omega, by dsimp only; omega,
      by dsimp only; omega⟩)

end

theorem forRange_confined {range : Set (Int × Int)} {body : Int → DrawBuf → DrawBuf}
    {start stop : Int}
    (confined : ∀ i buff, start ≤ i → i < stop → Confined range buff (body i buff))
    (buff : DrawBuf) : Confined range buff (forRange start stop body buff) :=
  Confined.forLoop (fun round current _ early =>
    confined (start + round) current (by omega) (by omega)) buff

theorem fillColumns_confined {start stop : Int} {color : UInt8} (left : 0 ≤ start)
    (right : stop ≤ widthPix) (buff : DrawBuf) : Confined bar buff (forRange start stop
      (fun i => forRange 0 heightPix fun j buff => buff.store (j, i) color) buff) :=
  forRange_confined (fun i buff from_left to_right => forRange_confined (fun j buff top low =>
    Confined.store (show (j, i) ∈ bar from
      ⟨top, low, left.trans from_left, to_right.trans_le right⟩) color buff) buff) buff

theorem convasc_confined (font : Int → Nat → UInt8) (color : UInt8) (letter : List Int)
    {start : Int} {count : Nat} (left : 0 ≤ start) (right : start + count * 8 ≤ widthPix)
    (buff : DrawBuf) :
    Confined bar buff (convasc font color letter start (start + count * 8) buff) := by
  have rounds : ((start + count * 8 - start + 7) / 8).toNat = count := by omega
  rw [convasc, rounds]
  refine Confined.forLoop (fun index current _ char => ?_) buff
  refine Confined.forLoop (fun j current top low => ?_) current
  refine Confined.forLoop (fun k current _ bit => ?_) current
  have inside : ((j : Int), start + 8 * index + k) ∈ bar := by
    dsimp only [heightPix] at low
    exact ⟨by dsimp only; omega, by dsimp only [heightPix]; omega, by dsimp only; omega,
      by dsimp only; omega⟩
  dsimp only
  split_ifs
  · exact Confined.store inside on current
  · exact Confined.store inside color current

/-- All writes of `strbuff` are in the status bar. -/
theorem strbuff_confined (font : Int → Nat → UInt8) {text : List UInt8} (lvl : Nat)
    (length : text.length ≤ 40) (buff : DrawBuf) :
    Confined bar buff (strbuff font text lvl buff) := by
  have fits : gap text + text.length * 8 ≤ widthPix := by
    dsimp only [gap, widthPix]
    omega
  rw [strbuff, gap_eq length]
  refine .trans (.trans (.trans (forRange_confined (fun i buff left right => ?_) buff)
    (fillColumns_confined le_rfl (by omega) _))
      (convasc_confined font (off lvl) _ (by omega) (by exact_mod_cast fits) _))
        (fillColumns_confined (by omega) le_rfl _)
  have top : ((0 : Int), i) ∈ bar := ⟨le_rfl, show (0 : Int) < heightPix by decide, left, right⟩
  have bottom : ((heightPix : Int) - 1, i) ∈ bar :=
    ⟨show (0 : Int) ≤ heightPix - 1 by decide, show (heightPix : Int) - 1 < heightPix by decide,
      left, right⟩
  exact (Confined.store top (off lvl) buff).trans (Confined.store bottom (off lvl) _)

/-- The split is at a pixel of a row. The counters are those of the pixels before it. -/
structure Split (drawbuf : DrawBuf) (j i : Nat) (planes : Planes) : Prop where
  c : ∀ n < 4, planes.c n = 80 * j + (i + 3 - n) / 4
  put : ∀ y x : Nat, x < widthPix → y < j ∨ y = j ∧ x < i →
    planes.plane (x % 4) (80 * y + x / 4) = drawbuf.memory (y, x)

theorem Split.next {drawbuf : DrawBuf} {j i : Nat} {planes : Planes}
    (split : Split drawbuf j i planes) (inside : i < widthPix) :
    Split drawbuf j (i + 1) (planes.put drawbuf j i) := by
  have counter := split.c (i % 4) (Nat.mod_lt i (by decide))
  have place : 80 * j + (i + 3 - i % 4) / 4 = 80 * j + i / 4 := by omega
  rw [place] at counter
  constructor
  · intro n plane
    dsimp only [Planes.put]
    rw [Function.update_apply, counter, split.c n plane]
    split_ifs with same
    · omega
    · omega
  · intro y x column earlier
    dsimp only [Planes.put]
    rw [counter, Function.update_apply]
    split_ifs with same
    · rw [Function.update_apply]
      split_ifs with here
      · obtain ⟨rfl, rfl⟩ : y = j ∧ x = i := by
          dsimp only [widthPix] at column inside
          omega
        rfl
      · rw [← same]
        exact split.put y x column (by omega)
    · exact split.put y x column (by
        rcases earlier with row | ⟨row, before⟩
        · exact .inl row
        · exact .inr ⟨row, by
            have different : x ≠ i := fun equal => same (by rw [equal])
            omega⟩)

theorem splitPlanes_split (drawbuf : DrawBuf) (plane : Nat → Nat → UInt8) :
    Split drawbuf heightPix 0 (splitPlanes drawbuf plane) := by
  apply forLoop_rule fun j planes => Split drawbuf j 0 planes
  · refine ⟨fun n low => ?_, fun y x _ earlier => ?_⟩
    · dsimp only
      omega
    · omega
  · intro j planes _ before
    rw [Nat.zero_add]
    have row : Split drawbuf j widthPix
        (forLoop (Planes.put drawbuf j) 0 widthPix planes) := by
      apply forLoop_rule fun i planes => Split drawbuf j i planes
      · exact before
      · intro i planes inside split
        rw [Nat.zero_add]
        exact split.next inside
    refine ⟨fun n low => ?_, fun y x column earlier => row.put y x column ?_⟩
    · rw [row.c n low]
      dsimp only [widthPix]
      omega
    · omega

namespace Video

variable {video : Video} {n : Nat}

/-- The bytes of one plane of the status bar. -/
theorem copyBar_copied (inside : n < 4) (img : Nat → UInt8) :
    Copied (fun place => img place.toNat) 0 n 0 barSize (video.setWriteMask (0x0100 <<< n))
      ((video.setWriteMask (0x0100 <<< n)).copyBar img 0) := by
  have mask : 0x0100 <<< n = 1 <<< (n + 8) := by
    rw [Nat.add_comm, Nat.shiftLeft_add]
    rfl
  rw [mask, copyBar]
  have copied := @bytes_copied (video.setWriteMask (1 <<< (n + 8))) n
    (video.mapMask_testBit n) inside (fun place => img place.toNat) 0 0 barSize
  simpa only [Int.zero_add, Int.toNat_natCast] using copied

/-- The four copies bring the plane buffers to the planes of the display. -/
theorem copyBars_memory (plane : Nat → Nat → UInt8) (video : Video) {n offset : Nat}
    (inside : n < 4) (low : offset < barSize) :
    (forLoop (fun n video => (video.setWriteMask (0x0100 <<< n)).copyBar (plane n) 0) 0 4
      video).memory.memory (n, offset) = plane n offset := by
  have copied : ∀ n < 4, ∀ offset < barSize,
      (forLoop (fun n video => (video.setWriteMask (0x0100 <<< n)).copyBar (plane n) 0) 0 4
        video).memory.memory (n, offset) = plane n offset := by
    apply forLoop_rule fun done (current : Video) => ∀ n < done, ∀ offset < barSize,
      current.memory.memory (n, offset) = plane n offset
    · intro n early
      omega
    · intro done current early before n recent offset below
      rw [Nat.zero_add, (@copyBar_copied current done early (plane done)).memory]
      dsimp only
      by_cases last : n = done
      · rw [if_pos ⟨last, Nat.zero_le _, by omega⟩, last]
        simp
      · rw [if_neg fun same => last same.1]
        exact before n (by omega) offset below
  exact copied n inside offset low

end Video

/-- The display shows the draw buffer after `show_status`. -/
theorem showStatus_displays {font : Int → Nat → UInt8} {fuel lvl tick froot : Nat}
    {unset : Nat → UInt8} {buff : DrawBuf} {plane : Nat → Nat → UInt8} {video : Video}
    {status : StatusBar}
    (shown : showStatus font fuel unset lvl tick froot buff plane video = some status)
    {x y : Nat} (row : y < heightPix) (column : x < widthPix) :
    status.video.memory.memory (x % 4, 80 * y + x / 4) = status.drawbuf.memory (y, x) := by
  rw [showStatus] at shown
  simp only [Option.bind_eq_bind, Option.bind_eq_some_iff, Option.pure_def,
    Option.some.injEq] at shown
  obtain ⟨text, _, ⟨len, words⟩, _, rfl⟩ := shown
  dsimp only [heightPix, widthPix] at row column
  dsimp only
  rw [Video.copyBars_memory _ video (by omega) (by dsimp only [barSize]; omega)]
  exact (splitPlanes_split _ plane).put y x column (.inl row)

/-- The color around the characters is the level counted from zero. -/
theorem off_eq {lvl : Nat} (first : 1 ≤ lvl) (last : lvl ≤ 10) :
    off lvl = UInt8.ofNat (lvl - 1) := by
  interval_cases lvl <;> rfl

/-- After `strbuff` each pixel of the buffer is determined by the text and the level, and after
`show_status` the display shows the buffer of its text. -/
theorem statusBar_rendered (font : Int → Nat → UInt8) {text : List UInt8} {lvl : Nat}
    (length : text.length ≤ 40) (ascii : ∀ char ∈ text, char < 128) (first : 1 ≤ lvl)
    (last : lvl ≤ 10) (buff : DrawBuf) :
    (∀ j x : Nat, j < 18 → x < 320 → (strbuff font text lvl buff).memory (j, x) =
      if Lit font text j x then 0x0F else UInt8.ofNat (lvl - 1)) ∧
    ∀ fuel unset tick froot plane video status,
      showStatus font fuel unset lvl tick froot buff plane video = some status →
        (∃ input, status.drawbuf = strbuff font input lvl buff) ∧
        ∀ x y : Nat, y < 18 → x < 320 →
          status.video.memory.memory (x % 4, 80 * y + x / 4) = status.drawbuf.memory (y, x) := by
  constructor
  · intro j x row column
    have inside : ((j : Int), (x : Int)) ∈ bar :=
      ⟨Int.natCast_nonneg j, Int.ofNat_lt.2 row, Int.natCast_nonneg x, Int.ofNat_lt.2 column⟩
    have shown := @strbuff_shows font text lvl length ascii buff _ inside
    rw [← off_eq first last]
    exact shown
  · intro fuel unset tick froot plane video status shown
    refine ⟨?_, fun x y row column => showStatus_displays shown row column⟩
    rw [showStatus] at shown
    simp only [Option.bind_eq_bind, Option.bind_eq_some_iff, Option.pure_def, Option.some.injEq]
      at shown
    obtain ⟨_, _, _, _, rfl⟩ := shown
    exact ⟨_, rfl⟩

/-- A font whose characters all are the left half of their cell. -/
def halves : Int → Nat → UInt8 := fun _ _ => 0xF0

/-- A display with nothing on it. -/
def blankVideo : Video := ⟨⟨fun _ => 0, []⟩, 0, fun _ => 0, 0⟩

/-- A text of an odd length over stale content, and the first letter on the display. -/
theorem statusBar_rendered_halves :
    ((strbuff halves (Chars.ascii "Level 7") 7 ⟨fun _ => 0xAA, []⟩).memory (1, 132) = 0x0F ∧
      (strbuff halves (Chars.ascii "Level 7") 7 ⟨fun _ => 0xAA, []⟩).memory (1, 136) = 6 ∧
      (strbuff halves (Chars.ascii "Level 7") 7 ⟨fun _ => 0xAA, []⟩).memory (17, 132) = 6) ∧
      ∃ status, showStatus halves 64 (fun _ => 0) 7 0 2 ⟨fun _ => 0xAA, []⟩ (fun _ _ => 0)
          blankVideo = some status ∧
        status.video.memory.memory (48 % 4, 80 * 1 + 48 / 4) = 0x0F := by
  have ascii : (Chars.ascii "Level 7").all (fun char => char < 128) = true := by decide
  have low (char : UInt8) (member : char ∈ Chars.ascii "Level 7") : char < 128 :=
    of_decide_eq_true (List.all_eq_true.1 ascii char member)
  obtain ⟨rendered, displayed⟩ := @statusBar_rendered halves (Chars.ascii "Level 7") 7 (by decide)
    low (by decide) (by decide) ⟨fun _ => 0xAA, []⟩
  refine ⟨⟨(rendered 1 132 (by decide) (by decide)).trans (if_pos (by decide)),
    (rendered 1 136 (by decide) (by decide)).trans (if_neg (by decide)),
    (rendered 17 132 (by decide) (by decide)).trans (if_neg (by decide))⟩, ?_⟩
  have drawn : ((showStatus halves 64 (fun _ => 0) 7 0 2 ⟨fun _ => 0xAA, []⟩ (fun _ _ => 0)
      blankVideo).map fun status => decide (status.drawbuf.memory (1, 48) = 0x0F)) = some true := by
    decide +kernel
  obtain ⟨status, shown, letter⟩ := Option.map_eq_some_iff.1 drawn
  refine ⟨status, shown, ?_⟩
  rw [(displayed _ _ _ _ _ _ status shown).2 48 1 (by decide) (by decide)]
  exact of_decide_eq_true letter

end ComputerSystems.Mp2
