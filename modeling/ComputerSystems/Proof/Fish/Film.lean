import ComputerSystems.Proof.Fish.AddFrames
import ComputerSystems.Proof.Mp1.BlinkTiming

namespace ComputerSystems.Fish

open Grep (newline)
open Kernel (Channel Channels FileSystem ValidImage blank entryData initFileArray)
open Library Mp1
open User (Buffer Process Ran Setting)

section Blinks
variable {blink : Blink}

theorem ticked_chars (blink : Blink) :
    blink.ticked.onChar = blink.onChar ∧ blink.ticked.offChar = blink.offChar := by
  rw [Blink.ticked]
  split_ifs
  · exact ⟨rfl, rfl⟩
  · exact ⟨rfl, rfl⟩
  · exact ⟨rfl, rfl⟩

/-- What never changes: the characters, and that the status is on or off. -/
theorem iterate_keeps (toggles : blink.Toggles) (count : Nat) :
    (Blink.ticked^[count] blink).onChar = blink.onChar ∧
      (Blink.ticked^[count] blink).offChar = blink.offChar ∧
        (Blink.ticked^[count] blink).Toggles := by
  induction count with
  | zero => exact ⟨rfl, rfl, toggles⟩
  | succ count ih =>
      rw [Function.iterate_succ_apply']
      have chars := ticked_chars (Blink.ticked^[count] blink)
      exact ⟨chars.1.trans ih.1, chars.2.trans ih.2.1, Blink.ticked_toggles ih.2.2⟩

theorem status_eq_zero_iff (toggles : blink.Toggles) : blink.status = 0 ↔ ¬ blink.status = 1 := by
  have apart : (0 : UInt16) ≠ 1 := by decide
  rcases toggles with off | on
  · rw [off]
    exact iff_of_true rfl apart
  · rw [on]
    exact iff_of_false apart.symm fun other => other rfl

theorem lit_iterate_off (blink : Blink) (on : blink.onLength ≠ 0) (off : blink.offLength ≠ 0)
    (count : Nat) :
    (Blink.ticked^[count] blink.lit).status = 0 ↔
      ¬ count % (blink.onLength.toNat + blink.offLength.toNat) < blink.onLength.toNat := by
  have toggles : blink.lit.Toggles := .inr rfl
  rw [status_eq_zero_iff (iterate_keeps toggles count).2.2, Blink.lit_iterate_status on off]

/-- The characters alternate with the two periods. -/
theorem lit_iterate_shown (blink : Blink) (on : blink.onLength ≠ 0) (off : blink.offLength ≠ 0)
    (count : Nat) :
    (Blink.ticked^[count] blink.lit).shown =
      if count % (blink.onLength.toNat + blink.offLength.toNat) < blink.onLength.toNat then
        blink.onChar
      else blink.offChar := by
  have toggles : blink.lit.Toggles := .inr rfl
  obtain ⟨onChar, offChar, _⟩ := iterate_keeps toggles count
  rw [Blink.shown, onChar, offChar]
  by_cases lit : count % (blink.onLength.toNat + blink.offLength.toNat) < blink.onLength.toNat
  · rw [if_pos lit, if_neg ((not_congr (lit_iterate_off blink on off count)).2 (not_not.2 lit))]
    rfl
  · rw [if_neg lit, if_pos ((lit_iterate_off blink on off count).2 lit)]
    rfl

/-- A follower goes on with the timing of its leader. -/
theorem follow_iterate (leader follower : Blink) (count : Nat) :
    Blink.ticked^[count] (leader.follow follower) =
      (Blink.ticked^[count] leader).follow follower := by
  refine (Function.Semiconj.iterate_right (f := fun leader : Blink => leader.follow follower)
    (fun leader => ?_) count leader).symm
  rw [Blink.ticked, Blink.ticked]
  change _ = if leader.expires then if leader.status = 0 then _ else _ else _
  split_ifs
  · rfl
  · rfl
  · rfl

theorem followed_shown (leader follower : Blink) : (leader.follow follower).shown =
    if leader.status = 0 then follower.offChar else follower.onChar := rfl

end Blinks

/-- The cast after a number of ticks. -/
def Cast.after (cast : Cast) (count : Nat) : Cast := fun location =>
  (cast location).map Blink.ticked^[count]

theorem after_zero (cast : Cast) : cast.after 0 = cast := funext fun _ => Option.map_id'

theorem after_after (cast : Cast) (first second : Nat) :
    (cast.after first).after second = cast.after (first + second) := by
  funext location
  rw [Cast.after, Cast.after, Cast.after, Option.map_map, Nat.add_comm, Function.iterate_add]

section
variable {setting : Setting} {start : Process} {channels : Channels} {text : List UInt8}
variable {studio : Studio} {video : Nat → UInt8} {cast : Cast} {items : List Listed}

/-- Each round shows the cast and ticks it. -/
theorem waits_ends {rate : Kernel.Word} (ran : Ran setting start channels text studio.process)
    (clock : channels 3 = some (.clock rate))
    (stages : Stages video cast studio.system.engine items) (garbage : Buffer) (rounds : Nat) :
    Ends (waits setting 3 garbage rounds) studio fun _ next =>
      Ran setting start channels text next.process ∧
        (∃ others, Stages video (cast.after rounds) next.system.engine others) ∧
          next.frames = studio.frames ++
            (List.range rounds).map fun count => picture video (cast.after count) := by
  induction rounds generalizing studio cast items garbage with
  | zero =>
      refine ends_pure ⟨ran, ⟨items, ?_⟩, (List.append_nil _).symm⟩
      rwa [after_zero]
  | succ rounds ih =>
      unfold waits
      have kept : Ends (modify fun studio : Studio =>
          { studio with frames := studio.frames ++ [studio.system.engine.video] } :
            Program Studio Failure PUnit) studio fun _ next => next =
          { studio with frames := studio.frames ++ [studio.system.engine.video] } :=
        ⟨_, _, rfl, rfl⟩
      refine kept.bind ?_
      rintro _ _ rfl
      have reads : (Channels.read setting.fs 3 (BitVec.ofInt 32 4).toNat channels) =
          (⟨0, []⟩, channels) := by
        unfold Channels.read
        have descriptor : Kernel.fdIndex 3 = some 3 := by decide
        rw [descriptor]
        dsimp only
        rw [clock]
      have aside : (3 : Int) ≠ 0 := by decide
      have read : Ends (call (User.ece391Read setting 3 garbage 4))
          { studio with frames := studio.frames ++ [studio.system.engine.video] } _ :=
        call_ends (ran.ece391Read aside garbage)
      refine read.bind ?_
      rintro ⟨numBytes, filled⟩ first ⟨⟨_, ran⟩, system, frames⟩
      rw [reads] at ran
      obtain ⟨engine, others, served, ticked⟩ := stages.tick first.system.results
      have tick : Ends (request .tasklet) first fun _ next =>
          next = { first with system := ⟨engine, first.system.results⟩ } := by
        refine request_ends ?_ rfl
        rw [← served, system]
      refine tick.bind ?_
      rintro _ _ rfl
      have one : (fun location => (cast location).map Blink.ticked) = cast.after 1 := rfl
      rw [one] at ticked
      refine (@ih ⟨first.process, ⟨engine, first.system.results⟩, first.frames⟩ (cast.after 1)
        others ran ticked filled).mono ?_
      rintro _ last ⟨ran, ⟨others, reached⟩, shown⟩
      rw [after_after, Nat.add_comm] at reached
      refine ⟨ran, ⟨others, reached⟩, ?_⟩
      rw [shown, frames, List.range_succ_eq_map, List.map_cons, List.map_map, after_zero]
      have later : (fun count => picture video ((cast.after 1).after count)) =
          (fun count => picture video (cast.after count)) ∘ Nat.succ := by
        funext count
        rw [after_after, Nat.add_comm]
        rfl
      dsimp only
      rw [later, stages.video, List.append_assoc]
      rfl

end

/-- The channels when the clock is open, and one file or two. -/
def clockOpened : Channels := (Channels.fresh.connect (.clock 2)).2

def bothOpened (reader0 reader1 : Reader UInt8) : Channels :=
  Function.update (Function.update clockOpened 4 (some (.file reader0))) 5 (some (.file reader1))

theorem connect_first (reader : Reader UInt8) : clockOpened.connect (.file reader) =
    (4, Function.update clockOpened 4 (some (.file reader))) := rfl

theorem connect_second (reader0 reader1 : Reader UInt8) :
    Channels.connect (.file reader1) (Function.update clockOpened 4 (some (.file reader0))) =
      (5, bothOpened reader0 reader1) := rfl

/-- The lines of the file of an entry. -/
def entryLines (fs : FileSystem) (index : Nat) : List (List UInt8) :=
  (entryData fs index).splitOn newline

/-- The scene of two files that a fresh process opens after the clock. -/
def openedScene (setting : Setting) (start : Process) (video : Nat → UInt8) (first second : Nat)
    (sheet0 : Sheet (entryLines setting.fs first)) (sheet1 : Sheet (entryLines setting.fs second)) :
    Scene where
  setting := setting
  start := start
  text := []
  channels := clockOpened
  fd0 := 4
  fd1 := 5
  index0 := 4
  index1 := 5
  lines0 := entryLines setting.fs first
  lines1 := entryLines setting.fs second
  video := video
  descriptor0 := by decide
  descriptor1 := by decide
  large0 := by decide
  large1 := by decide
  apart := by decide
  sheet0 := sheet0
  sheet1 := sheet1

/-- The image has a regular file with the name at the entry. -/
def Plain (fs : FileSystem) (name : Kernel.CString) (index : Nat) : Prop :=
  fs.entryOf name.bytes = some index ∧ 2 ≤ (fs.direntries index).filetype

theorem Plain.openName {fs : FileSystem} {name : Kernel.CString} {index : Nat}
    (plain : Plain fs name index) (channels : Channels) :
    channels.openName fs (some name) =
      channels.connect (.file (.start (entryData fs index))) := by
  unfold Channels.openName
  dsimp only [Option.bind]
  rw [plain.1]
  have regular := plain.2
  dsimp only
  rw [FileSystem.channel, if_neg (by omega), if_neg (by omega)]

section
variable {setting : Setting} {start : Process} {studio : Studio} {video : Nat → UInt8}
variable {first second : Nat}

/-- The start of an open file is the start of its first line. -/
theorem tape_start {channels : Channels} {index : Fin 8} {data : List UInt8}
    (opened : channels index = some (.file (.start data))) :
    Tape channels index 48 false ((data.splitOn newline).getD 0 [])
      ((data.splitOn newline).drop 1) := by
  obtain ⟨lines, front⟩ := splitOn_eq_cons newline data
  refine .running (by decide) opened ?_
  rw [front]
  exact front

/-- Nothing is added before the first place. -/
theorem before_first {lines0 lines1 : List (List UInt8)} :
    (frameCast lines0 lines1).before (80 * 0 + 40) = fun _ => none := by
  funext location
  rw [Cast.before]
  split_ifs with early
  · exact if_neg fun shown => absurd shown.1 (by omega)
  · rfl

theorem addFrames_ends (valid : ValidImage setting.fs)
    (ran : Ran setting start clockOpened [] studio.process)
    (stages : ∃ items, Stages video (fun _ => none) studio.system.engine items)
    (frames : studio.frames = []) {f0 f1 : Kernel.CString} (plain0 : Plain setting.fs f0 first)
    (plain1 : Plain setting.fs f1 second) (sheet0 : Sheet (entryLines setting.fs first))
    (sheet1 : Sheet (entryLines setting.fs second)) (stack : BlinkStruct) {fuel : Nat}
    (enough : 817 < fuel) :
    Ends (addFrames setting fuel stack f0 f1) studio fun _ next =>
      (∃ channels, Ran setting start channels [] next.process ∧ channels 3 = some (.clock 2)) ∧
        (∃ items, Stages video (frameCast (entryLines setting.fs first)
          (entryLines setting.fs second)) next.system.engine items) ∧ next.frames = [] := by
  unfold addFrames
  refine (call_ends (ran.ece391Open valid f0)).bind ?_
  rintro fd0 one ⟨⟨descriptor0, ran⟩, system, still⟩
  rw [plain0.openName, connect_first] at descriptor0 ran
  obtain rfl : fd0 = 4 := descriptor0
  rw [if_neg (by decide)]
  refine (call_ends (ran.ece391Open valid f1)).bind ?_
  rintro fd1 two ⟨⟨descriptor1, ran⟩, system', still'⟩
  rw [plain1.openName, connect_second] at descriptor1 ran
  obtain rfl : fd1 = 5 := descriptor1
  rw [if_neg (by decide)]
  have begun : (openedScene setting start video first second sheet0 sheet1).Begun
      ⟨0, 0, false, false, 48, 48⟩ two := by
    have some (index : Nat) : (entryLines setting.fs index).drop 0 ≠ [] :=
      List.splitOn_ne_nil newline _
    obtain ⟨items, stages⟩ := stages
    rw [← system, ← system'] at stages
    rw [← still, ← still'] at frames
    have opened0 : bothOpened (.start (entryData setting.fs first))
        (.start (entryData setting.fs second)) 4 = Option.some (.file _) :=
      Function.update_of_ne (by decide) _ _
    have opened1 : bothOpened (.start (entryData setting.fs first))
        (.start (entryData setting.fs second)) 5 = Option.some (.file _) :=
      Function.update_self ..
    refine ⟨⟨⟨_, ran, ?_, tape_start opened0, tape_start opened1⟩, ⟨items, ?_⟩, frames⟩, ?_, ?_⟩
    · intro other not0 not1
      exact (Function.update_of_ne not1 _ _).trans (Function.update_of_ne not0 _ _)
    · exact before_first.symm ▸ stages
    · exact iff_of_false Bool.false_ne_true (some first)
    · exact iff_of_false Bool.false_ne_true (some second)
  have drawn := Scene.loop_ends stack enough begun
  refine drawn.mono ?_
  rintro _ next ⟨⟨channels, ran, others⟩, stages, frames⟩
  have not0 : (3 : Fin 8) ≠ 4 := by decide
  have not1 : (3 : Fin 8) ≠ 5 := by decide
  exact ⟨⟨channels, ran, others 3 not0 not1⟩, stages, frames⟩

end

/-- The place of the structure that `main` adds. -/
def labelPlace : Nat := 6 * 80 + 60

/-- What its place shows: two characters in periods of their own, then in those of the frames, and
at last the one that was there. -/
def label (under : UInt8) (count : Nat) : UInt8 :=
  if count < 100 then under
  else if count < 200 then if (count - 100) % 13 < 7 then 73 else 77
  else if count < 300 then if count % 30 < 15 then 73 else 77
  else 73

/-- What the video memory holds at a wait: one frame and the other in turn over the background. -/
def film (video : Nat → UInt8) (lines0 lines1 : List (List UInt8)) (count offset : Nat) : UInt8 :=
  if offset = 2 * labelPlace then label (video offset) count
  else if offset % 2 = 0 then
    (frameCast lines0 lines1 (offset / 2)).elim (video offset) fun blink =>
      if count % 30 < 15 then blink.onChar else blink.offChar
  else video offset

section
variable {lines0 lines1 : List (List UInt8)} {video under : Nat → UInt8} {cast : Cast}

/-- All structures of the frames have the same periods. -/
theorem frameCast_shown {location : Nat} {blink : Blink}
    (found : frameCast lines0 lines1 location = some blink) (count : Nat) :
    (Blink.ticked^[count] blink).shown =
      if count % 30 < 15 then blink.onChar else blink.offChar := by
  have runs : (15 : UInt16) ≠ 0 := by decide
  unfold frameCast at found
  dsimp only at found
  split_ifs at found
  cases found
  exact lit_iterate_shown ⟨_, _, _, 15, 15, 15, 1⟩ runs runs count

/-- Off the place of the label only the frames are seen. -/
theorem picture_film {count : Nat}
    (same : ∀ location ≠ labelPlace, cast location =
      (frameCast lines0 lines1).after count location)
    (around : ∀ offset ≠ 2 * labelPlace, under offset = video offset)
    (here : (cast labelPlace).elim (under (2 * labelPlace)) Blink.shown =
      label (video (2 * labelPlace)) count) :
    picture under cast = film video lines0 lines1 count := by
  funext offset
  rw [picture, film]
  by_cases place : offset = 2 * labelPlace
  · rw [if_pos place, place, if_pos (by omega), Nat.mul_div_cancel_left _ two_pos]
    exact here
  · rw [if_neg place]
    by_cases even : offset % 2 = 0
    · rw [if_pos even, if_pos even, same _ (by omega), around _ place, Cast.after]
      cases found : frameCast lines0 lines1 (offset / 2) with
      | none => rfl
      | some blink => exact frameCast_shown found count
    · rw [if_neg even, if_neg even]
      exact around _ place

end

section
variable {studio : Studio}

theorem request_stages {asked : Request} {video : Nat → UInt8} {cast : Cast} {results : List Int}
    (served : ∃ after others, serve ⟨studio.system.engine, studio.system.results⟩ asked =
      .ok ⟨after, results⟩ ∧ Stages video cast after others) :
    Ends (request asked) studio fun _ next =>
      (∃ items, Stages video cast next.system.engine items) ∧ next.process = studio.process ∧
        next.frames = studio.frames := by
  obtain ⟨after, others, served, stages⟩ := served
  exact request_ends served ⟨⟨others, stages⟩, rfl, rfl⟩

end

/-- The structure of the label at the start of its first period. -/
def labelBlink : Blink := ⟨UInt16.ofNat labelPlace, 73, 77, 7, 6, 7, 1⟩

theorem labelBlink_paced : Paced labelBlink := by
  refine ⟨⟨.inr rfl, ?_, ?_, ?_⟩, ?_, ?_, ?_⟩ <;> decide

section
variable {cast : Cast} {corner : Blink}

/-- The casts of `main`: the frames, the label with them, the label in step with the first place,
and the frames alone. -/
def labelled (cast : Cast) : Cast :=
  Function.update (cast.after 100) labelPlace (some labelBlink)

def synced (cast : Cast) (corner : Blink) : Cast :=
  Function.update ((labelled cast).after 100) labelPlace
    (some ((Blink.ticked^[200] corner).follow (Blink.ticked^[100] labelBlink)))

def unlabelled (cast : Cast) (corner : Blink) : Cast :=
  Function.update ((synced cast corner).after 100) labelPlace none

theorem labelled_same (cast : Cast) {location : Nat} (apart : location ≠ labelPlace) (count : Nat) :
    (labelled cast).after count location = cast.after (100 + count) location := by
  rw [← after_after, Cast.after, labelled, Function.update_of_ne apart]
  rfl

theorem synced_same (cast : Cast) (corner : Blink) {location : Nat} (apart : location ≠ labelPlace)
    (count : Nat) : (synced cast corner).after count location =
      cast.after (200 + count) location := by
  rw [Cast.after, synced, Function.update_of_ne apart]
  change ((labelled cast).after 100).after count location = _
  rw [after_after, labelled_same cast apart, ← Nat.add_assoc]

theorem unlabelled_same (cast : Cast) (corner : Blink) {location : Nat}
    (apart : location ≠ labelPlace) (count : Nat) :
    (unlabelled cast corner).after count location = cast.after (300 + count) location := by
  rw [Cast.after, unlabelled, Function.update_of_ne apart]
  change ((synced cast corner).after 100).after count location = _
  rw [after_after, synced_same cast corner apart, ← Nat.add_assoc]

theorem labelBlink_shown (count : Nat) :
    (Blink.ticked^[count] labelBlink).shown = if count % 13 < 7 then 73 else 77 := by
  have on : (7 : UInt16) ≠ 0 := by decide
  have off : (6 : UInt16) ≠ 0 := by decide
  exact lit_iterate_shown labelBlink on off count

theorem frameCast_off {lines0 lines1 : List (List UInt8)} {location : Nat}
    (found : frameCast lines0 lines1 location = some corner) (count : Nat) :
    (Blink.ticked^[count] corner).status = 0 ↔ ¬ count % 30 < 15 := by
  have runs : (15 : UInt16) ≠ 0 := by decide
  unfold frameCast at found
  dsimp only at found
  split_ifs at found
  cases found
  exact lit_iterate_off ⟨_, _, _, 15, 15, 15, 1⟩ runs runs count

/-- In step with the first place, the label shows its first character as long as the frames show
theirs. -/
theorem follow_shown {lines0 lines1 : List (List UInt8)}
    (leads : frameCast lines0 lines1 40 = some corner) (count : Nat) :
    (Blink.ticked^[count] ((Blink.ticked^[200] corner).follow
        (Blink.ticked^[100] labelBlink))).shown =
      if (200 + count) % 30 < 15 then 73 else 77 := by
  have toggles : labelBlink.Toggles := .inr rfl
  obtain ⟨onChar, offChar, _⟩ := iterate_keeps toggles 100
  have status := frameCast_off leads (200 + count)
  rw [follow_iterate, ← Function.iterate_add_apply, Nat.add_comm, followed_shown, onChar, offChar]
  by_cases lit : (200 + count) % 30 < 15
  · rw [if_pos lit, if_neg fun dark => status.1 dark lit]
    rfl
  · rw [if_neg lit, if_pos (status.2 lit)]
    rfl

end

section
variable {lines0 lines1 : List (List UInt8)} {video : Nat → UInt8} {corner : Blink} {count : Nat}

/-- The four parts of the film. -/
theorem film_first (apart : frameCast lines0 lines1 labelPlace = none) (part : count < 100) :
    picture video ((frameCast lines0 lines1).after count) = film video lines0 lines1 count := by
  refine picture_film (fun _ _ => rfl) (fun _ _ => rfl) ?_
  rw [Cast.after, apart, label, if_pos part]
  rfl

theorem film_second (part : count < 100) :
    picture video ((labelled (frameCast lines0 lines1)).after count) =
      film video lines0 lines1 (100 + count) := by
  refine picture_film (fun _ apart => labelled_same _ apart count) (fun _ _ => rfl) ?_
  rw [Cast.after, labelled, Function.update_self, label, if_neg (by omega), if_pos (by omega),
    Nat.add_sub_cancel_left]
  exact labelBlink_shown count

theorem film_third (leads : frameCast lines0 lines1 40 = some corner) (part : count < 100) :
    picture video ((synced (frameCast lines0 lines1) corner).after count) =
      film video lines0 lines1 (200 + count) := by
  refine picture_film (fun _ apart => synced_same _ corner apart count) (fun _ _ => rfl) ?_
  rw [Cast.after, synced, Function.update_self, label, if_neg (by omega), if_neg (by omega),
    if_pos (by omega)]
  exact follow_shown leads count

theorem film_fourth (count : Nat) :
    picture (Function.update video (2 * labelPlace) 73)
        ((unlabelled (frameCast lines0 lines1) corner).after count) =
      film video lines0 lines1 (300 + count) := by
  refine picture_film (fun _ apart => unlabelled_same _ corner apart count)
    (fun _ other => Function.update_of_ne other ..) ?_
  rw [Cast.after, unlabelled, Function.update_self, label, if_neg (by omega), if_neg (by omega),
    if_neg (by omega)]
  exact Function.update_self (2 * labelPlace) 73 video

end

/-- The clock takes the rate of `main`. -/
theorem write_rate {channels : Channels} {rate : Kernel.Word}
    (seen : channels 3 = some (.clock rate)) : channels.write 3 (some retVal) 4 =
      (4, Function.update channels 3 (some (.clock 32))) := by
  have descriptor : Kernel.fdIndex 3 = some 3 := by decide
  have freq : Kernel.requestedRate retVal = 32 := by decide
  unfold Channels.write
  rw [descriptor]
  dsimp only
  rw [seen]
  dsimp only
  rw [freq, if_pos (by decide)]
  rfl

/-- With two frames that fit the screen, `main` returns zero and shows its film. -/
theorem main_plays {setting : Setting} (valid : ValidImage setting.fs) {process : Process}
    (table : process.state.pcb.fileArray = initFileArray blank) {clock first second : Nat}
    (device : setting.fs.entryOf rtc.bytes = some clock ∧
      (setting.fs.direntries clock).filetype = 0)
    (plain0 : Plain setting.fs file0 first) (plain1 : Plain setting.fs file1 second)
    (sheet0 : Sheet (entryLines setting.fs first)) (sheet1 : Sheet (entryLines setting.fs second))
    (leads : frameCast (entryLines setting.fs first) (entryLines setting.fs second) 40 ≠ none)
    (apart : frameCast (entryLines setting.fs first) (entryLines setting.fs second) labelPlace =
      none) (video : Nat → UInt8) (stack addStack : BlinkStruct) (garbage : Buffer) {fuel : Nat}
    (enough : 817 < fuel) :
    ∃ final, main setting fuel stack addStack garbage (Studio.begin process video) =
        .ok (0, final) ∧
      final.frames = (List.range 400).map
        (film video (entryLines setting.fs first) (entryLines setting.fs second)) ∧
      final.process.printed = process.printed := by
  obtain ⟨corner, leads⟩ := Option.ne_none_iff_exists'.1 leads
  suffices ends : Ends (main setting fuel stack addStack garbage) (Studio.begin process video)
      fun value next => value = 0 ∧ next.frames = (List.range 400).map
        (film video (entryLines setting.fs first) (entryLines setting.fs second)) ∧
          next.process.printed = process.printed by
    obtain ⟨value, final, ran, rfl, holds⟩ := ends
    exact ⟨final, ran, holds⟩
  have opened : Channels.fresh.openName setting.fs (some rtc) = (3, clockOpened) := by
    unfold Channels.openName
    dsimp only [Option.bind]
    rw [device.1]
    dsimp only
    rw [FileSystem.channel, if_pos device.2]
    rfl
  unfold main
  refine (call_ends ((User.ran_start table).ece391Open valid rtc)).bind ?_
  rintro rtcFd one ⟨⟨descriptor, ran⟩, system, still⟩
  rw [opened] at descriptor ran
  obtain rfl : rtcFd = 3 := descriptor
  have begun : Stages video (fun _ => none) one.system.engine [] := by
    rw [system]
    exact start_stages video
  refine (addFrames_ends valid ran ⟨[], begun⟩ still plain0 plain1 sheet0 sheet1 addStack
    enough).bind ?_
  rintro _ two ⟨⟨channels, ran, seen⟩, ⟨items, stages⟩, still⟩
  generalize entryLines setting.fs first = lines0 at *
  generalize entryLines setting.fs second = lines1 at *
  refine (call_ends (ran.ece391Write_clock (by decide) seen retVal)).bind ?_
  rintro written three ⟨⟨_, ran⟩, system, shown⟩
  have rate : (channels.write 3 (some retVal) 4).2 3 = some (.clock 32) := by
    rw [write_rate seen]
    exact Function.update_self (3 : Fin 8) (some (Channel.clock 32)) channels
  rw [← system] at stages
  rw [still] at shown
  refine (waits_ends ran rate stages garbage 100).bind ?_
  rintro garbage four ⟨ran, ⟨items, stages⟩, frames⟩
  rw [shown] at frames
  have added : Ends (request (.add { stack with
      onChar := 73, offChar := 77, onLength := 7, offLength := 6, location := 6 * 80 + 60 })) four
      fun _ next => (∃ items, Stages video (labelled _) next.system.engine items) ∧
        next.process = four.process ∧ next.frames = four.frames :=
    request_stages (stages.add four.system.results labelBlink_paced
      (show 0 < (6 * 80 + 60 : UInt16).toNat by decide)
      (show (6 * 80 + 60 : UInt16).toNat < 2000 by decide)
      (congrArg (Option.map Blink.ticked^[100]) apart))
  refine added.bind ?_
  rintro _ five ⟨⟨items, stages⟩, same, still⟩
  rw [frames] at still
  rw [← same] at ran
  refine (waits_ends ran rate stages garbage 100).bind ?_
  rintro garbage six ⟨ran, ⟨items, stages⟩, frames⟩
  rw [still] at frames
  have leader : (labelled (frameCast lines0 lines1)).after 100 40 =
      some (Blink.ticked^[200] corner) := by
    rw [labelled_same _ (by decide), Cast.after, leads]
    rfl
  have follower : (labelled (frameCast lines0 lines1)).after 100 labelPlace =
      some (Blink.ticked^[100] labelBlink) := by
    rw [Cast.after, labelled, Function.update_self]
    rfl
  have syncs : Ends (request (.sync (BitVec.ofNat 32 (40 * 2 ^ 16 + (6 * 80 + 60))))) six
      fun _ next => (∃ items, Stages video (synced _ corner) next.system.engine items) ∧
        next.process = six.process ∧ next.frames = six.frames :=
    request_stages (@Stages.sync _ _ _ _ stages six.system.results _ 40 540 _ _ (by decide)
      (by decide) leader follower ((frameCast_off leads 200).2 (by decide)))
  refine syncs.bind ?_
  rintro _ seven ⟨⟨items, stages⟩, same, still⟩
  rw [frames] at still
  rw [← same] at ran
  refine (waits_ends ran rate stages garbage 100).bind ?_
  rintro garbage eight ⟨ran, ⟨items, stages⟩, frames⟩
  rw [still] at frames
  have last : (synced (frameCast lines0 lines1) corner).after 100 labelPlace =
      some (Blink.ticked^[100]
        ((Blink.ticked^[200] corner).follow (Blink.ticked^[100] labelBlink))) := by
    rw [Cast.after, synced, Function.update_self]
    rfl
  have lit := follow_shown leads 100
  have removes : Ends (request (.remove (BitVec.ofNat 32 (6 * 80 + 60)))) eight
      fun _ next => (∃ items, Stages (Function.update video (2 * labelPlace) 73)
          (unlabelled (frameCast lines0 lines1) corner) next.system.engine items) ∧
        next.process = eight.process ∧ next.frames = eight.frames := by
    have removed := @Stages.remove _ _ _ _ stages eight.system.results
      (BitVec.ofNat 32 (6 * 80 + 60)) 540 _ (by decide) last
    rw [lit] at removed
    exact request_stages removed
  refine removes.bind ?_
  rintro _ nine ⟨⟨items, stages⟩, same, still⟩
  rw [frames] at still
  rw [← same] at ran
  refine (waits_ends ran rate stages garbage 100).bind ?_
  rintro garbage ten ⟨ran, -, frames⟩
  rw [still] at frames
  refine (call_ends (ran.ece391Close 3)).bind ?_
  rintro closed final ⟨⟨_, ran⟩, _, shown⟩
  refine ends_pure ⟨rfl, ?_, ran.printed.trans (List.append_nil _)⟩
  have parts : List.range 400 = List.range 100 ++ (List.range 100).map (100 + ·) ++
      (List.range 100).map (200 + ·) ++ (List.range 100).map (300 + ·) := by
    rw [← List.range_add, ← List.range_add, ← List.range_add]
  rw [shown, frames, parts, List.nil_append]
  simp only [List.map_append, List.map_map]
  refine congr (congrArg _ (congr (congrArg _ (congr (congrArg _ ?_) ?_)) ?_)) ?_
  · exact List.map_congr_left fun count part => film_first apart (List.mem_range.1 part)
  · exact List.map_congr_left fun count part => film_second (List.mem_range.1 part)
  · exact List.map_congr_left fun count part => film_third leads (List.mem_range.1 part)
  · exact List.map_congr_left fun count part => film_fourth count

/-- An image with a clock and two frames of one character. -/
def filmHeader : List UInt8 :=
  [3, 0, 0, 0, 2, 0, 0, 0, 2] ++ List.replicate 55 0 ++
  Grep.ascii "rtc" ++ List.replicate 61 0 ++
  Grep.ascii "frame0.txt" ++ List.replicate 22 0 ++ 2 :: List.replicate 31 0 ++
  Grep.ascii "frame1.txt" ++ List.replicate 22 0 ++ [2, 0, 0, 0, 1] ++ List.replicate 27 0

def filmImage : FileSystem where
  memory address :=
    if address < 256 then filmHeader.getD address 0
    else if address = 4096 ∨ address = 8192 ∨ address = 8196 then 1
    else if address = 12288 then 111
    else if address = 16384 then 120
    else 0
  fsPtr := 0

theorem filmImage_valid : ValidImage filmImage where
  count := by decide +kernel
  named := by decide +kernel
  distinct := by decide +kernel
  known := by decide +kernel
  zero := by
    intro index listed inside position bound
    have entries : filmImage.dirCount = 3 := by decide +kernel
    dsimp only [Kernel.numFiles] at inside
    have wrapped : (0 + (64 + 64 * index + position)) % 2 ^ 32 = 64 + 64 * index + position := by
      omega
    change filmImage.memory ((0 + (64 + 64 * index + position)) % 2 ^ 32) = 0
    rw [wrapped, filmImage]
    dsimp only
    rw [if_neg (by omega), if_neg (by omega), if_neg (by omega), if_neg (by omega)]
  sound := by
    intro index listed regular
    have entries : filmImage.dirCount = 3 := by decide +kernel
    have choices : index = 0 ∨ index = 1 ∨ index = 2 := by omega
    rcases choices with rfl | rfl | rfl
    · exact absurd regular (by decide +kernel)
    · exact ⟨by decide +kernel, by decide +kernel, by decide +kernel⟩
    · exact ⟨by decide +kernel, by decide +kernel, by decide +kernel⟩

/-- The character of the first frame is seen for fifteen ticks, and then that of the second. -/
theorem main_plays_filmImage : ∃ final,
    main (User.quiet filmImage) 1000 zeroed zeroed (fun _ => 0)
        (Studio.begin User.namedProcess fun _ => 32) = .ok (0, final) ∧
      (final.frames.map fun frame => frame 80).take 31 =
        List.replicate 15 111 ++ List.replicate 15 120 ++ [111] := by
  obtain ⟨final, finished, frames, _⟩ := @main_plays (User.quiet filmImage) filmImage_valid
    User.namedProcess rfl 0 1 2 ⟨by decide +kernel, by decide +kernel⟩
    ⟨by decide +kernel, by decide +kernel⟩ ⟨by decide +kernel, by decide +kernel⟩
    ⟨by decide +kernel, by decide +kernel⟩ ⟨by decide +kernel, by decide +kernel⟩
    (by decide +kernel) (by decide +kernel) (fun _ => 32) zeroed zeroed (fun _ => 0) 1000
    (by decide)
  refine ⟨final, finished, ?_⟩
  rw [frames, List.map_map]
  decide +kernel

end ComputerSystems.Fish
