import ComputerSystems.Construction.Fish.Main
import ComputerSystems.Library.Lines
import ComputerSystems.Proof.Fish.Cast
import ComputerSystems.Proof.User.Programs

namespace ComputerSystems.Fish

open Grep (newline)
open Kernel (Channel Channels fdIndex)
open Library Mp1
open User (Buffer Process Ran Setting)

section
variable {setting : Setting} {start : Process} {channels after : Channels} {text : List UInt8}
variable {studio : Studio}

/-- A call of the process leaves the engine and the frames alone. -/
theorem call_ends {Value : Type} {program : Program Process User.Fault Value}
    {post : Value → Process → Prop} (ends : Ends program studio.process post) :
    Ends (call program) studio fun value next =>
      post value next.process ∧ next.system = studio.system ∧ next.frames = studio.frames := by
  obtain ⟨value, process, ran, holds⟩ := ends
  refine ⟨value, { studio with process := process }, ?_, holds, rfl, rfl⟩
  rw [call, ran]

theorem request_ends {asked : Request} {system : System}
    (served : serve studio.system asked = .ok system) {post : Unit → Studio → Prop}
    (holds : post () { studio with system := system }) : Ends (request asked) studio post :=
  ⟨(), { studio with system := system }, by rw [request, served], holds⟩

/-- What is left of the current line and the lines after it, when a character was the last one. -/
inductive Tape (channels : Channels) (index : Fin 8) :
    UInt8 → Bool → List UInt8 → List (List UInt8) → Prop where
  | running {c : UInt8} {reader : Reader UInt8} {line : List UInt8} {later : List (List UInt8)}
      (other : c ≠ newline) (opened : channels index = some (.file reader))
      (split : (reader.data.drop reader.position).splitOn newline = line :: later) :
      Tape channels index c false line later
  | ended {reader : Reader UInt8} {later : List (List UInt8)}
      (opened : channels index = some (.file reader))
      (split : (reader.data.drop reader.position).splitOn newline = later) :
      Tape channels index newline false [] later
  | closed : Tape channels index newline true [] []

variable {index : Fin 8} {fd : Int} {c : UInt8} {eof : Bool} {line : List UInt8}
variable {later : List (List UInt8)}

theorem Tape.congr (tape : Tape channels index c eof line later)
    (same : after index = channels index) : Tape after index c eof line later := by
  cases tape with
  | running other opened split => exact .running other (same.trans opened) split
  | ended opened split => exact .ended (same.trans opened) split
  | closed => exact .closed

/-- No character of a line ends it. -/
theorem Tape.free (tape : Tape channels index c eof line later) : newline ∉ line := by
  cases tape with
  | running other opened split =>
      rename_i reader
      obtain ⟨lines, front⟩ := splitOn_eq_cons newline (reader.data.drop reader.position)
      rw [front] at split
      obtain ⟨rfl, _⟩ := List.cons.inj split
      intro member
      simpa using List.mem_takeWhile_imp member
  | ended opened split => exact List.not_mem_nil
  | closed => exact List.not_mem_nil

/-- A read takes the next character of the line, or finds its end. -/
theorem readChar_ends (ran : Ran setting start channels text studio.process)
    (descriptor : fdIndex fd = some index) (large : 2 ≤ index)
    (tape : Tape channels index c eof line later) :
    Ends (readChar setting fd c eof) studio fun outcome next => ∃ after,
      Ran setting start after text next.process ∧ next.system = studio.system ∧
        next.frames = studio.frames ∧ outcome.1 = line.headD newline ∧
          Tape after index outcome.1 outcome.2 line.tail later ∧
            ∀ other ≠ index, after other = channels other := by
  cases tape with
  | ended opened split =>
      unfold readChar
      rw [if_pos rfl]
      exact ends_pure ⟨channels, ran, rfl, rfl, rfl, .ended opened split, fun _ _ => rfl⟩
  | closed =>
      unfold readChar
      rw [if_pos rfl]
      exact ends_pure ⟨channels, ran, rfl, rfl, rfl, .closed, fun _ _ => rfl⟩
  | running other opened split =>
      rename_i reader
      unfold readChar
      rw [if_neg other]
      refine (call_ends (ran.ece391Read (User.fd_ne_zero descriptor large)
        fun _ => c)).bind ?_
      rintro ⟨numBytes, buf⟩ next ⟨⟨reply, read⟩, system, frames⟩
      have one : (BitVec.ofInt 32 1).toNat = 1 := rfl
      have reads : channels.read setting.fs fd 1 =
          (⟨(reader.piece 1).length, reader.piece 1⟩,
            Function.update channels index (some (.file (reader.advance 1)))) := by
        unfold Channels.read
        rw [descriptor]
        dsimp only
        rw [opened]
      rw [one, reads] at read reply
      rw [Kernel.Reply.mk.injEq] at reply
      obtain ⟨rfl, filled⟩ := reply
      have kept : ∀ other ≠ index, Function.update channels index
          (some (.file (reader.advance 1))) other = channels other :=
        fun other apart => Function.update_of_ne apart ..
      have left : (reader.advance 1).data.drop (reader.advance 1).position =
          (reader.data.drop reader.position).tail := by
        rw [List.tail_drop, reader.advance_position, reader.piece_length]
        change reader.data.drop _ = _
        by_cases ends : reader.position < reader.data.length
        · rw [Nat.min_eq_left (by omega)]
        · rw [List.drop_eq_nil_of_le (by omega), List.drop_eq_nil_of_le (by omega)]
      have piece : reader.piece 1 = (reader.data.drop reader.position).take 1 := rfl
      rw [piece] at read filled ⊢
      dsimp only at filled ⊢
      generalize reader.data.drop reader.position = rest at *
      cases rest with
      | nil =>
          rw [List.splitOn_nil] at split
          obtain ⟨rfl, rfl⟩ := List.cons.inj split
          rw [List.take_nil, List.length_nil, if_pos (by rfl)]
          exact ends_pure ⟨_, read, system, frames, rfl, .closed, kept⟩
      | cons symbol rest =>
          have got : buf 0 = symbol := by simpa using filled
          rw [if_neg (by simp), got]
          rw [List.splitOn_cons_eq_if_modifyHead] at split
          by_cases ends : symbol = newline
          · subst ends
            rw [if_pos (BEq.refl _)] at split
            obtain ⟨rfl, rfl⟩ := List.cons.inj split
            refine ends_pure ⟨_, read, system, frames, rfl, ?_, kept⟩
            exact .ended (Function.update_self ..) (by rw [left]; rfl)
          · rw [if_neg (by simpa using ends)] at split
            obtain ⟨lines, front⟩ := splitOn_eq_cons newline rest
            rw [front, List.modifyHead_cons] at split
            obtain ⟨rfl, rfl⟩ := List.cons.inj split
            refine ends_pure ⟨_, read, system, frames, rfl, ?_, kept⟩
            exact .running ends (Function.update_self ..) (by rw [left]; exact front)

/-- The next line starts, or there is none and the file is closed. -/
theorem nextLine_ends (ran : Ran setting start channels text studio.process)
    (descriptor : fdIndex fd = some index) (tape : Tape channels index newline eof [] later) :
    Ends (nextLine setting fd eof) studio fun c next => ∃ after,
      Ran setting start after text next.process ∧ next.system = studio.system ∧
        next.frames = studio.frames ∧ Tape after index c eof (later.headD []) later.tail ∧
          (eof = true ↔ later = []) ∧ ∀ other ≠ index, after other = channels other := by
  cases tape with
  | running other opened split => exact absurd rfl other
  | ended opened split =>
      obtain ⟨lines, front⟩ := splitOn_eq_cons newline _
      rw [front] at split
      subst split
      unfold nextLine
      rw [if_neg Bool.false_ne_true]
      exact ends_pure ⟨channels, ran, rfl, rfl, .running (by decide) opened front,
        iff_of_false Bool.false_ne_true (List.cons_ne_nil _ _), fun _ _ => rfl⟩
  | closed =>
      unfold nextLine
      rw [if_pos rfl]
      refine (call_ends (ran.ece391Close fd)).bind ?_
      rintro closed next ⟨⟨_, closes⟩, system, frames⟩
      refine ends_pure ⟨_, closes, system, frames, .closed, iff_of_true rfl rfl, ?_⟩
      intro other apart
      unfold Channels.close
      rw [descriptor]
      dsimp only
      split
      · rfl
      · rfl
      · exact Function.update_of_ne apart ..

end

section
variable {line : List UInt8} {c : UInt8}

theorem headD_eq_newline (free : newline ∉ line) : line.headD newline = newline ↔ line = [] := by
  cases line with
  | nil => exact iff_of_true rfl rfl
  | cons symbol rest =>
      refine iff_of_false (fun same => free ?_) (List.cons_ne_nil _ _)
      exact List.mem_cons.2 (.inl same.symm)

/-- The end of a line is drawn as a blank. -/
theorem headD_space (free : newline ∉ line) :
    (if line.headD newline = newline then space else line.headD newline) = line.headD space := by
  cases line with
  | nil => rfl
  | cons symbol rest => exact if_neg fun same => free (List.mem_cons.2 (.inl same.symm))

theorem headD_drop (line : List UInt8) (col : Nat) :
    (line.drop col).headD space = line.getD col space := by
  rw [List.headD_eq_head?_getD, List.head?_drop, List.getD_eq_getElem?_getD]

theorem visible_iff : c ≠ space ∧ c ≠ newline ↔ (if c = newline then space else c) ≠ space := by
  split_ifs with ends
  · exact iff_of_false (fun visible => visible.2 ends) fun blank => blank rfl
  · exact and_iff_left ends

end

/-- The character that lines have in a row and a column. -/
def glyph (lines : List (List UInt8)) (row col : Nat) : UInt8 :=
  (lines.getD row []).getD col space

/-- The structures of two frames: one for each place at which a frame is not blank. -/
def frameCast (lines0 lines1 : List (List UInt8)) : Cast := fun location =>
  let c0 := glyph lines0 ((location - 40) / 80) ((location - 40) % 80)
  let c1 := glyph lines1 ((location - 40) / 80) ((location - 40) % 80)
  if 40 ≤ location ∧ location < 2000 ∧ (c0 ≠ space ∨ c1 ≠ space) then
    some ⟨.ofNat location, c0, c1, 15, 15, 15, 1⟩
  else none

/-- The part of a cast that is added first. -/
def Cast.before (cast : Cast) (bound : Nat) : Cast := fun location =>
  if location < bound then cast location else none

/-- The lines are no longer than those of the screen, and their places have numbers of 16 bits. -/
structure Sheet (lines : List (List UInt8)) : Prop where
  short : ∀ line ∈ lines, line.length ≤ 80
  few : lines.length ≤ 817

theorem Sheet.getD_length {lines : List (List UInt8)} (sheet : Sheet lines) (row : Nat) :
    (lines.getD row []).length ≤ 80 := by
  rw [List.getD_eq_getElem?_getD]
  cases found : lines[row]? with
  | none => exact Nat.zero_le _
  | some line => exact sheet.short line (List.mem_of_getElem? found)

theorem Sheet.drop_eq_nil {lines : List (List UInt8)} (sheet : Sheet lines) {row col : Nat}
    (outside : ¬(row ≤ 816 ∧ col < 80)) : (lines.getD row []).drop col = [] := by
  have few := sheet.few
  have short := sheet.getD_length row
  by_cases low : row ≤ 816
  · exact List.drop_eq_nil_of_le (by omega)
  · rw [List.getD_eq_default _ _ (by omega), List.drop_nil]

section
variable {cast : Cast} {lines0 lines1 : List (List UInt8)}

theorem before_eq {first last : Nat} (blank : ∀ location, first ≤ location → location < last →
    cast location = none) (ordered : first ≤ last) : cast.before last = cast.before first := by
  funext location
  rw [Cast.before, Cast.before]
  by_cases early : location < first
  · rw [if_pos early, if_pos (by omega)]
  · rw [if_neg early]
    split_ifs with late
    · exact blank location (by omega) late
    · rfl

theorem before_succ {bound : Nat} {blink : Blink} (found : cast bound = some blink) :
    cast.before (bound + 1) = Function.update (cast.before bound) bound (some blink) := by
  funext location
  rw [Cast.before, Function.update_apply, Cast.before]
  by_cases here : location = bound
  · rw [if_pos here, if_pos (by omega), here, found]
  · rw [if_neg here]
    by_cases early : location < bound
    · rw [if_pos early, if_pos (by omega)]
    · rw [if_neg early, if_neg (by omega)]

theorem before_succ_none {bound : Nat} (blank : cast bound = none) :
    cast.before (bound + 1) = cast.before bound := by
  refine before_eq (fun location lower upper => ?_) (Nat.le_succ bound)
  rw [show location = bound by omega, blank]

/-- The structure at the place of a row and a column. -/
theorem frameCast_place {row col : Nat} (inside : col < 80) :
    frameCast lines0 lines1 (80 * row + col + 40) =
      if 80 * row + col + 40 < 2000 ∧
          (glyph lines0 row col ≠ space ∨ glyph lines1 row col ≠ space) then
        some ⟨.ofNat (80 * row + col + 40), glyph lines0 row col, glyph lines1 row col, 15, 15, 15,
          1⟩
      else none := by
  have down : (80 * row + col + 40 - 40) / 80 = row := by omega
  have across : (80 * row + col + 40 - 40) % 80 = col := by omega
  unfold frameCast
  rw [down, across]
  dsimp only
  simp only [Nat.le_add_left, true_and]

/-- Behind the ends of both lines the row is blank. -/
theorem frameCast_blank {row col : Nat} (ends0 : (lines0.getD row []).length ≤ col)
    (ends1 : (lines1.getD row []).length ≤ col) {location : Nat}
    (lower : 80 * row + col + 40 ≤ location) (upper : location < 80 * (row + 1) + 40) :
    frameCast lines0 lines1 location = none := by
  obtain ⟨place, rfl⟩ := Nat.exists_eq_add_of_le (show 80 * row + 40 ≤ location by omega)
  have same : 80 * row + 40 + place = 80 * row + place + 40 := by omega
  rw [same, frameCast_place (by omega), if_neg]
  rintro ⟨_, blank | blank⟩
  · exact blank (List.getD_eq_default _ _ (by omega))
  · exact blank (List.getD_eq_default _ _ (by omega))

/-- All structures are added when both frames are through. -/
theorem before_all {row : Nat} (done0 : lines0.length ≤ row) (done1 : lines1.length ≤ row) :
    (frameCast lines0 lines1).before (80 * row + 40) = frameCast lines0 lines1 := by
  funext location
  rw [Cast.before]
  split_ifs with early
  · rfl
  · have row0 : lines0.length ≤ (location - 40) / 80 := by omega
    have row1 : lines1.length ≤ (location - 40) / 80 := by omega
    unfold frameCast glyph
    rw [List.getD_eq_default _ _ row0, List.getD_eq_default _ _ row1]
    simp

end

/-- The request for a place of the two frames extends the part of their cast. -/
theorem add_place {video : Nat → UInt8} {lines0 lines1 : List (List UInt8)} {row col : Nat}
    {system : System} {items : List Listed} (stages : Stages video
      ((frameCast lines0 lines1).before (80 * row + col + 40)) system.engine items)
    (stack : BlinkStruct) {c0 c1 : UInt8} (high : row ≤ 816) (inside : col < 80)
    (drawn0 : (if c0 = newline then space else c0) = glyph lines0 row col)
    (drawn1 : (if c1 = newline then space else c1) = glyph lines1 row col)
    (visible : glyph lines0 row col ≠ space ∨ glyph lines1 row col ≠ space) :
    ∃ next others, serve system (.add (blinkStruct stack row col c0 c1)) = .ok next ∧
      Stages video ((frameCast lines0 lines1).before (80 * row + col + 40 + 1)) next.engine
        others := by
  have place : (UInt16.ofNat (row * 80 + col + 40)).toNat = 80 * row + col + 40 := by
    rw [UInt16.toNat_ofNat_of_lt' (by rw [UInt16.size]; omega)]
    omega
  by_cases screen : 80 * row + col + 40 < 2000
  · have found : frameCast lines0 lines1 (80 * row + col + 40) =
        some (blinkStruct stack row col c0 c1).toBlink.lit := by
      rw [frameCast_place inside, if_pos ⟨screen, visible⟩, ← drawn0, ← drawn1, Nat.mul_comm]
      rfl
    have free : (frameCast lines0 lines1).before (80 * row + col + 40) (80 * row + col + 40) =
        none := if_neg (Nat.lt_irrefl _)
    have same : (blinkStruct stack row col c0 c1).location.toNat = 80 * row + col + 40 := place
    have runs : (15 : UInt16) ≠ 0 := by decide
    have short : (15 : UInt16).toNat ≤ 2 ^ 15 := by decide
    have paced : Paced (blinkStruct stack row col c0 c1).toBlink.lit :=
      ⟨⟨.inr rfl, runs, runs, runs⟩, short, short, short⟩
    obtain ⟨after, others, served, joined⟩ := stages.add system.results paced
      (by rw [same]; omega) (by rw [same]; exact screen) (by rw [same]; exact free)
    rw [same, ← before_succ found] at joined
    exact ⟨_, others, served, joined⟩
  · rw [before_succ_none (by rw [frameCast_place inside, if_neg fun shown => screen shown.1])]
    refine ⟨_, items, Stages.add_outside system.engine system.results ?_, stages⟩
    exact (Nat.le_of_not_lt screen).trans_eq place.symm

/-- What stays the same while two frames are added: the descriptors of their files and all other
channels, their lines, and the background. -/
structure Scene where
  setting : Setting
  start : Process
  text : List UInt8
  channels : Channels
  fd0 : Int
  fd1 : Int
  index0 : Fin 8
  index1 : Fin 8
  lines0 : List (List UInt8)
  lines1 : List (List UInt8)
  video : Nat → UInt8
  descriptor0 : fdIndex fd0 = some index0
  descriptor1 : fdIndex fd1 = some index1
  large0 : 2 ≤ index0
  large1 : 2 ≤ index1
  apart : index0 ≠ index1
  sheet0 : Sheet lines0
  sheet1 : Sheet lines1

namespace Scene

variable (scene : Scene)

/-- In a row both files have been read up to a column, and the structures before it are added. -/
structure Drawing (locals : Locals) (rest0 rest1 : List UInt8) (bound : Nat) (studio : Studio) :
    Prop where
  reached : ∃ channels, Ran scene.setting scene.start channels scene.text studio.process ∧
    (∀ other, other ≠ scene.index0 → other ≠ scene.index1 →
      channels other = scene.channels other) ∧
    Tape channels scene.index0 locals.c0 locals.eof0 rest0 (scene.lines0.drop (locals.row + 1)) ∧
      Tape channels scene.index1 locals.c1 locals.eof1 rest1 (scene.lines1.drop (locals.row + 1))
  stages : ∃ items, Stages scene.video ((frameCast scene.lines0 scene.lines1).before bound)
    studio.system.engine items
  frames : studio.frames = []

/-- What is left of the line of the row in the first frame. -/
def rest0 (locals : Locals) : List UInt8 := (scene.lines0.getD locals.row []).drop locals.col

def rest1 (locals : Locals) : List UInt8 := (scene.lines1.getD locals.row []).drop locals.col

variable {scene} {locals : Locals} {studio : Studio}

/-- A round of the inner loop draws a place of the row, or finds the row at its end. -/
theorem colRound_ends (stack : BlinkStruct) (inside : locals.col ≤ 80)
    (drawing : scene.Drawing locals (scene.rest0 locals) (scene.rest1 locals)
      (80 * locals.row + locals.col + 40) studio) :
    Ends (colRound scene.setting stack scene.fd0 scene.fd1 locals) studio fun outcome next =>
      match outcome with
      | .inl read => read.row = locals.row ∧ read.c0 = newline ∧ read.c1 = newline ∧
          scene.Drawing read [] [] (80 * (locals.row + 1) + 40) next
      | .inr read => (read.row = locals.row ∧ read.col = locals.col + 1 ∧ locals.col < 80) ∧
          scene.Drawing read (scene.rest0 read) (scene.rest1 read)
            (80 * read.row + read.col + 40) next := by
  obtain ⟨⟨channels, ran, others, tape0, tape1⟩, ⟨items, stages⟩, frames⟩ := drawing
  have free0 := tape0.free
  have free1 := tape1.free
  unfold colRound
  refine (readChar_ends ran scene.descriptor0 scene.large0 tape0).bind ?_
  rintro ⟨c0, eof0⟩ first ⟨middle, ran, system, still, char0, tape0, kept⟩
  have tape1 := tape1.congr (kept _ scene.apart.symm)
  refine (readChar_ends ran scene.descriptor1 scene.large1 tape1).bind ?_
  rintro ⟨c1, eof1⟩ second ⟨after, ran, system', still', char1, tape1, kept'⟩
  have tape0 := tape0.congr (kept' _ scene.apart)
  have others (other : Fin 8) (not0 : other ≠ scene.index0) (not1 : other ≠ scene.index1) :
      after other = scene.channels other :=
    (kept' other not1).trans ((kept other not0).trans (others other not0 not1))
  rw [← system, ← system'] at stages
  rw [← still, ← still'] at frames
  dsimp only at char0 char1 tape0 tape1 ⊢
  have ended0 := headD_eq_newline free0
  have ended1 := headD_eq_newline free1
  have drawn0 := headD_space free0
  have drawn1 := headD_space free1
  rw [← char0] at ended0 drawn0
  rw [← char1] at ended1 drawn1
  rw [rest0, headD_drop, ← glyph] at drawn0
  rw [rest1, headD_drop, ← glyph] at drawn1
  by_cases ends : c0 = newline ∧ c1 = newline
  · have empty0 := ended0.1 ends.1
    have empty1 := ended1.1 ends.2
    have blank := before_eq (fun location => frameCast_blank (List.drop_eq_nil_iff.1 empty0)
      (List.drop_eq_nil_iff.1 empty1)) (show 80 * locals.row + locals.col + 40 ≤ _ by
        omega)
    rw [empty0] at tape0
    rw [empty1] at tape1
    rw [if_pos ends]
    exact ends_pure ⟨rfl, ends.1, ends.2, ⟨after, ran, others, tape0, tape1⟩,
      ⟨items, blank ▸ stages⟩, frames⟩
  · have place : locals.row ≤ 816 ∧ locals.col < 80 := by
      by_contra outside
      exact ends ⟨ended0.2 (scene.sheet0.drop_eq_nil outside),
        ended1.2 (scene.sheet1.drop_eq_nil outside)⟩
    have tail0 : (scene.rest0 locals).tail = (scene.lines0.getD locals.row []).drop
        (locals.col + 1) := List.tail_drop
    have tail1 : (scene.rest1 locals).tail = (scene.lines1.getD locals.row []).drop
        (locals.col + 1) := List.tail_drop
    rw [tail0] at tape0
    rw [tail1] at tape1
    have visible : (c0 ≠ space ∧ c0 ≠ newline ∨ c1 ≠ space ∧ c1 ≠ newline) ↔
        glyph scene.lines0 locals.row locals.col ≠ space ∨
          glyph scene.lines1 locals.row locals.col ≠ space := by
      rw [visible_iff, visible_iff, drawn0, drawn1]
    rw [if_neg ends]
    by_cases seen : c0 ≠ space ∧ c0 ≠ newline ∨ c1 ≠ space ∧ c1 ≠ newline
    · rw [if_pos seen]
      obtain ⟨system, others', served, joined⟩ :=
        add_place stages stack place.1 place.2 drawn0 drawn1 (visible.1 seen)
      have requested : Ends (request (.add (blinkStruct stack locals.row locals.col c0 c1))) second
          fun _ next => next = { second with system := system } := request_ends served rfl
      refine requested.bind ?_
      rintro _ next rfl
      exact ends_pure ⟨⟨rfl, rfl, place.2⟩, ⟨after, ran, others, tape0, tape1⟩,
        ⟨others', joined⟩, frames⟩
    · have blank : frameCast scene.lines0 scene.lines1 (80 * locals.row + locals.col + 40) =
          none := by
        rw [frameCast_place place.2, if_neg fun shown => seen (visible.2 shown.2)]
      rw [if_neg seen]
      exact ends_pure ⟨⟨rfl, rfl, place.2⟩, ⟨after, ran, others, tape0, tape1⟩,
        ⟨items, (before_succ_none blank).symm ▸ stages⟩, frames⟩

/-- At the start of a row a file has ended exactly when it has no more lines. -/
structure Begun (scene : Scene) (locals : Locals) (studio : Studio) : Prop where
  drawing : scene.Drawing locals (scene.lines0.getD locals.row []) (scene.lines1.getD locals.row [])
    (80 * locals.row + 40) studio
  ends0 : locals.eof0 = true ↔ scene.lines0.drop locals.row = []
  ends1 : locals.eof1 = true ↔ scene.lines1.drop locals.row = []

/-- Both frames are in the cast. -/
structure Drawn (scene : Scene) (studio : Studio) : Prop where
  reached : ∃ channels, Ran scene.setting scene.start channels scene.text studio.process ∧
    ∀ other, other ≠ scene.index0 → other ≠ scene.index1 → channels other = scene.channels other
  stages : ∃ items, Stages scene.video (frameCast scene.lines0 scene.lines1) studio.system.engine
    items
  frames : studio.frames = []

/-- The inner loop draws a row. -/
theorem row_ends (stack : BlinkStruct) {fuel : Nat} (enough : 80 < fuel)
    (begun : scene.Begun locals studio) :
    Ends (loop (.program .endless) (colRound scene.setting stack scene.fd0 scene.fd1) fuel
      { locals with col := 0 }) studio fun read next =>
        read.row = locals.row ∧ read.c0 = newline ∧ read.c1 = newline ∧
          scene.Drawing read [] [] (80 * (locals.row + 1) + 40) next := by
  refine ends_loop (fun (place : Locals) (next : Studio) => place.row = locals.row ∧
      place.col ≤ 80 ∧ scene.Drawing place (scene.rest0 place) (scene.rest1 place)
        (80 * place.row + place.col + 40) next)
    (fun place _ => 80 - place.col) ?_ ⟨rfl, Nat.zero_le _,
      ⟨begun.drawing.reached, begun.drawing.stages, begun.drawing.frames⟩⟩ enough
  rintro place state ⟨row, inside, drawing⟩
  refine (colRound_ends stack inside drawing).mono ?_
  rintro (read | read) next holds
  · rw [row] at holds
    exact holds
  · obtain ⟨⟨same, right, before⟩, drawing⟩ := holds
    exact ⟨⟨same.trans row, by omega, drawing⟩, by omega⟩

/-- A round of the outer loop draws a row, or both frames are through. -/
theorem rowRound_ends (stack : BlinkStruct) {fuel : Nat} (enough : 80 < fuel)
    (begun : scene.Begun locals studio) :
    Ends (rowRound scene.setting fuel stack scene.fd0 scene.fd1 locals) studio fun outcome next =>
      match outcome with
      | .inl _ => scene.Drawn next
      | .inr read => scene.Begun read next ∧ read.row = locals.row + 1 ∧
          locals.row < max scene.lines0.length scene.lines1.length := by
  unfold rowRound
  by_cases through : locals.eof0 ∧ locals.eof1
  · have done0 := List.drop_eq_nil_iff.1 (begun.ends0.1 through.1)
    have done1 := List.drop_eq_nil_iff.1 (begun.ends1.1 through.2)
    obtain ⟨⟨channels, ran, others, _⟩, stages, frames⟩ := begun.drawing
    rw [before_all done0 done1] at stages
    rw [if_pos through]
    exact ends_pure ⟨⟨channels, ran, others⟩, stages, frames⟩
  · rw [if_neg through]
    refine (row_ends stack enough begun).bind ?_
    rintro read next ⟨row, ended0, ended1, ⟨channels, ran, others, tape0, tape1⟩, stages, frames⟩
    rw [ended0] at tape0
    rw [ended1] at tape1
    refine (nextLine_ends ran scene.descriptor0 tape0).bind ?_
    rintro c0 first ⟨middle, ran, system, still, tape0, last0, kept⟩
    have tape1 := tape1.congr (kept _ scene.apart.symm)
    refine (nextLine_ends ran scene.descriptor1 tape1).bind ?_
    rintro c1 second ⟨after, ran, system', still', tape1, last1, kept'⟩
    have tape0 := tape0.congr (kept' _ scene.apart)
    have others (other : Fin 8) (not0 : other ≠ scene.index0) (not1 : other ≠ scene.index1) :
        after other = scene.channels other :=
      (kept' other not1).trans ((kept other not0).trans (others other not0 not1))
    have line (lines : List (List UInt8)) :
        (lines.drop (locals.row + 1)).headD [] = lines.getD (locals.row + 1) [] := by
      rw [List.headD_eq_head?_getD, List.head?_drop, List.getD_eq_getElem?_getD]
    rw [row] at tape0 tape1 last0 last1
    rw [line, List.tail_drop] at tape0 tape1
    rw [← system, ← system'] at stages
    rw [← still, ← still'] at frames
    refine ends_pure ⟨⟨⟨⟨after, ran, others, tape0, tape1⟩, stages, frames⟩, last0, last1⟩, rfl, ?_⟩
    by_contra beyond
    rw [not_lt, max_le_iff] at beyond
    exact through ⟨begun.ends0.2 (List.drop_eq_nil_of_le beyond.1),
      begun.ends1.2 (List.drop_eq_nil_of_le beyond.2)⟩

/-- The loops of `add_frames` put both frames into the cast. -/
theorem loop_ends (stack : BlinkStruct) {fuel : Nat} (enough : 817 < fuel)
    (begun : scene.Begun locals studio) :
    Ends (loop (.program .endless) (rowRound scene.setting fuel stack scene.fd0 scene.fd1) fuel
      locals) studio fun _ next => scene.Drawn next := by
  refine ends_loop scene.Begun
    (fun place _ => max scene.lines0.length scene.lines1.length - place.row) ?_ begun ?_
  · intro place state begun
    refine (rowRound_ends stack (by omega) begun).mono ?_
    rintro (value | read) next holds
    · exact holds
    · obtain ⟨begun, row, before⟩ := holds
      refine ⟨begun, ?_⟩
      rw [row]
      omega
  · have few := max_le scene.sheet0.few scene.sheet1.few
    omega

end Scene

end ComputerSystems.Fish
