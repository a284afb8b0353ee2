import ComputerSystems.Proof.Kernel.KeyboardQueue

namespace ComputerSystems.Kernel
open ComputerSystems.Library

/-- A key with its make code. Some keys send 0xE0 first. -/
inductive Key where
  | plain (make : UInt8)
  | extended (make : UInt8)

namespace Key

/-- Whether a code is a make or a break of the key. A break code has the highest bit set. -/
def read : Key → UInt8 × UInt8 → Option Bool
  | .plain make, code =>
      if code.1 = make then some true
      else if code.1 = make + 0x80 then some false
      else none
  | .extended make, code =>
      if code.1 ≠ 0xE0 then none
      else if code.2 = make then some true
      else if code.2 = make + 0x80 then some false
      else none

/-- The make and break codes of the key in a history. A repeat is one more make code. -/
def codes (key : Key) (history : List (UInt8 × UInt8)) : List Bool :=
  history.filterMap key.read

/-- A key is held when its last code is a make. -/
def held (key : Key) (history : List (UInt8 × UInt8)) : Bool :=
  (key.codes history).getLastD false

/-- The number of make codes that repeat no press. -/
def countPresses : Bool → List Bool → Nat
  | _, [] => 0
  | _, false :: rest => countPresses false rest
  | true, true :: rest => countPresses true rest
  | false, true :: rest => countPresses true rest + 1

def presses (key : Key) (history : List (UInt8 × UInt8)) : Nat :=
  countPresses false (key.codes history)

end Key

def leftShiftKey : Key := .plain 0x2A

def rightShiftKey : Key := .plain 0x36

def capsLockKey : Key := .plain 0x3A

/-- The control and alt keys. -/
def commandKeys : List Key := [.plain 0x1D, .extended 0x1D, .plain 0x38, .extended 0x38]

def shiftHeld (history : List (UInt8 × UInt8)) : Bool :=
  leftShiftKey.held history || rightShiftKey.held history

/-- Each press of the key toggles the lock. -/
def capsOn (history : List (UInt8 × UInt8)) : Bool :=
  (capsLockKey.presses history) % 2 == 1

def commandHeld (history : List (UInt8 × UInt8)) : Bool :=
  commandKeys.any fun key => key.held history

/-- What is printed on a key. -/
inductive Legend where
  | enter
  | letter (lower : Char)
  | symbol (plain shifted : Char)

namespace Legend

def character (shift caps : Bool) : Legend → UInt8
  | .enter => 10
  | .letter lower => if shift != caps then lower.toUpper.toUInt8 else lower.toUInt8
  | .symbol plain shifted => if shift then shifted.toUInt8 else plain.toUInt8

/-- The capslock table has a wrong entry for the enter key, and the lowercase table has no
shifted symbols. -/
def Misprinted (shift caps : Bool) : Legend → Prop
  | .enter => caps = true ∧ shift = false
  | .letter _ => False
  | .symbol plain shifted => caps = true ∧ shift = true ∧ plain ≠ shifted

instance (shift caps : Bool) : (legend : Legend) → Decidable (legend.Misprinted shift caps)
  | .enter => inferInstanceAs (Decidable (caps = true ∧ shift = false))
  | .letter _ => inferInstanceAs (Decidable False)
  | .symbol plain shifted =>
      inferInstanceAs (Decidable (caps = true ∧ shift = true ∧ plain ≠ shifted))

end Legend

/-- Neighbouring keys have consecutive make codes. -/
def keyRow (first : UInt8) (legends : List Legend) : List (UInt8 × Legend) :=
  legends.zipIdx.map fun place => (first + place.2.toUInt8, place.1)

/-- The character keys of the keyboard with their make codes. -/
def layout : List (UInt8 × Legend) :=
  keyRow 0x02 [.symbol '1' '!', .symbol '2' '@', .symbol '3' '#', .symbol '4' '$',
    .symbol '5' '%', .symbol '6' '^', .symbol '7' '&', .symbol '8' '*', .symbol '9' '(',
    .symbol '0' ')', .symbol '-' '_', .symbol '=' '+'] ++
  keyRow 0x10 (['q', 'w', 'e', 'r', 't', 'y', 'u', 'i', 'o', 'p'].map .letter ++
    [.symbol '[' '{', .symbol ']' '}', .enter]) ++
  keyRow 0x1E (['a', 's', 'd', 'f', 'g', 'h', 'j', 'k', 'l'].map .letter ++
    [.symbol ';' ':', .symbol '\'' '"', .symbol '`' '~']) ++
  keyRow 0x2B (.symbol '\\' '|' :: ['z', 'x', 'c', 'v', 'b', 'n', 'm'].map .letter ++
    [.symbol ',' '<', .symbol '.' '>', .symbol '/' '?']) ++
  keyRow 0x39 [.symbol ' ' ' ']

/-- The character of a scancode as a function of the two modifiers that matter. -/
def tableCharacter (shift caps : Bool) (scancode : UInt8) : UInt8 :=
  if shift && !caps then shiftcaseScancodes.getD scancode.toNat 0
  else if !shift && caps then capslockScancodes.getD scancode.toNat 0
  else lowercaseScancodes.getD scancode.toNat 0

theorem pressed_eq (scancode : UInt8) (keyboard : Keyboard) :
    keyboard.pressed scancode = tableCharacter keyboard.shift keyboard.caps scancode := rfl

/-- The three tables have the character of the key outside the two defects. -/
theorem tableCharacter_layout : ∀ shift caps, ∀ entry ∈ layout,
    (tableCharacter shift caps entry.1 = entry.2.character shift caps ↔
      ¬entry.2.Misprinted shift caps) ∧ tableCharacter shift caps entry.1 ≠ 0 := by
  decide +kernel

/-- The scancodes of the tables that have a character are those of the layout. -/
theorem tableCharacter_codes : ∀ shift caps,
    (List.range 64).filter (fun code => tableCharacter shift caps code.toUInt8 != 0) =
      layout.map fun entry => entry.1.toNat := by
  decide +kernel

theorem tableCharacter_beyond (shift caps : Bool) {scancode : UInt8}
    (beyond : 64 ≤ scancode.toNat) : tableCharacter shift caps scancode = 0 := by
  have absent (table : List UInt8) (size : table.length = 64) :
      table.getD scancode.toNat 0 = 0 := by
    rw [List.getD_eq_getElem?_getD, List.getElem?_eq_none (size.trans_le beyond),
      Option.getD_none]
  unfold tableCharacter
  split_ifs
  · exact absent _ rfl
  · exact absent _ rfl
  · exact absent _ rfl

/-- No other key has a character. -/
theorem tableCharacter_elsewhere (shift caps : Bool) {scancode : UInt8}
    (absent : scancode ∉ layout.map Prod.fst) : tableCharacter shift caps scancode = 0 := by
  by_contra visible
  have inside : scancode.toNat < 64 := by
    by_contra beyond
    exact visible (tableCharacter_beyond shift caps (Nat.not_lt.1 beyond))
  have own : scancode.toNat.toUInt8 = scancode := UInt8.ofNat_toNat
  have member : scancode.toNat ∈ (List.range 64).filter
      (fun code => tableCharacter shift caps code.toUInt8 != 0) := by
    rw [List.mem_filter, List.mem_range, own, bne_iff_ne]
    exact ⟨inside, visible⟩
  rw [tableCharacter_codes, List.mem_map] at member
  obtain ⟨entry, listed, same⟩ := member
  rw [UInt8.toNat_inj] at same
  exact absent (List.mem_map.2 ⟨entry, listed, same⟩)

/-- The make codes of the layout differ, and none of them is another key of the driver. -/
theorem layout_codes : (layout.map Prod.fst).Nodup ∧ ∀ entry ∈ layout, entry.1 ≤ 0x3F ∧
    entry.1 ∉ [0x0E, 0x1D, 0x2A, 0x36, 0x38, 0x3A, 0x3B, 0x3C, 0x3D] := by
  decide +kernel

/-- A press toggles a lock, and a repeat does not. -/
def toggle (lock : Bool × Bool) (down : Bool) : Bool × Bool :=
  (down, lock.2 ^^ (down && !lock.1))

/-- A lock is on after an odd number of presses. -/
theorem toggle_foldl (codes : List Bool) (held on : Bool) :
    codes.foldl toggle (held, on) =
      (codes.getLastD held, on ^^ (Key.countPresses held codes % 2 == 1)) := by
  induction codes generalizing held on with
  | nil => simp [Key.countPresses]
  | cons down rest inductionHypothesis =>
      rw [List.foldl_cons, toggle, inductionHypothesis, List.getLastD_cons]
      refine Prod.ext rfl ?_
      have parity := Nat.mod_two_eq_zero_or_one (Key.countPresses true rest)
      cases held <;> cases down
      case false.true =>
        rcases parity with even | odd
        · simp [Key.countPresses, Nat.add_mod, even]
        · simp [Key.countPresses, Nat.add_mod, odd]
      all_goals simp [Key.countPresses]

theorem foldl_last (codes : List Bool) (held : Bool) :
    codes.foldl (fun _ down => down) held = codes.getLastD held := by
  induction codes generalizing held with
  | nil => rfl
  | cons down rest inductionHypothesis =>
      rw [List.foldl_cons, inductionHypothesis, List.getLastD_cons]

/-- The keyboard after a history of codes. -/
def Keyboard.follow (history : List (UInt8 × UInt8)) (keyboard : Keyboard) : Keyboard :=
  history.foldl (fun current code => current.update code.1 code.2) keyboard

/-- A part of the keyboard that one key controls follows the codes of that key. -/
theorem follow_field {Value : Type} (field : Keyboard → Value) (advance : Value → Bool → Value)
    (key : Key) (controls : ∀ code keyboard, field (keyboard.update code.1 code.2) =
      match key.read code with
      | none => field keyboard
      | some down => advance (field keyboard) down)
    (history : List (UInt8 × UInt8)) (keyboard : Keyboard) :
    field (keyboard.follow history) = (key.codes history).foldl advance (field keyboard) := by
  induction history generalizing keyboard with
  | nil => rfl
  | cons code rest inductionHypothesis =>
      have later := inductionHypothesis (keyboard.update code.1 code.2)
      unfold Key.codes at later ⊢
      rw [List.filterMap_cons]
      rw [controls] at later
      cases reading : key.read code with
      | none =>
          rw [reading] at later
          exact later
      | some down =>
          rw [reading] at later
          exact later

/-- The modifier keys are up when the driver starts. -/
def Keyboard.released : Keyboard := ⟨false, false, false, false, false, false, false, false⟩

/-- One code changes at most one key. -/
theorem update_eq (scancode next : UInt8) (keyboard : Keyboard) :
    keyboard.update scancode next = {
      caps := if scancode = 0x3A ∧ keyboard.capsHeld = false then !keyboard.caps else keyboard.caps
      leftShift := if scancode = 0x2A then true else if scancode = 0xAA then false
        else keyboard.leftShift
      rightShift := if scancode = 0x36 then true else if scancode = 0xB6 then false
        else keyboard.rightShift
      leftCtrl := if scancode = 0x1D then true else if scancode = 0x9D then false
        else keyboard.leftCtrl
      rightCtrl := if scancode = 0xE0 ∧ next = 0x1D then true
        else if scancode = 0xE0 ∧ next = 0x9D then false else keyboard.rightCtrl
      leftAlt := if scancode = 0x38 then true else if scancode = 0xB8 then false
        else keyboard.leftAlt
      rightAlt := if scancode = 0xE0 ∧ next = 0x38 then true
        else if scancode = 0xE0 ∧ next = 0xB8 then false else keyboard.rightAlt
      capsHeld := if scancode = 0x3A then true else if scancode = 0xBA then false
        else keyboard.capsHeld } := by
  by_cases known : scancode ∈ [0x1D, 0x2A, 0x36, 0x38, 0x3A, 0x9D, 0xAA, 0xB6, 0xB8, 0xBA]
  · simp only [List.mem_cons, List.not_mem_nil, or_false] at known
    rcases known with rfl | rfl | rfl | rfl | rfl | rfl | rfl | rfl | rfl | rfl
    case inr.inr.inr.inr.inl =>
      cases held : keyboard.capsHeld <;> simp [Keyboard.update, held]
      rw [← held]
    all_goals simp [Keyboard.update]
  · simp only [List.mem_cons, List.not_mem_nil, or_false, not_or] at known
    by_cases extended : scancode = 0xE0
    · subst extended
      by_cases second : next ∈ [0x1D, 0x38, 0x9D, 0xB8]
      · simp only [List.mem_cons, List.not_mem_nil, or_false] at second
        rcases second with rfl | rfl | rfl | rfl
        all_goals simp [Keyboard.update]
      · simp only [List.mem_cons, List.not_mem_nil, or_false, not_or] at second
        simp [Keyboard.update, second]
    · simp [Keyboard.update, known, extended]

section
variable (history : List (UInt8 × UInt8))

/-- A modifier that one key sets and clears shows whether the key is held. -/
theorem follow_held (field : Keyboard → Bool) (key : Key) (up : field .released = false)
    (controls : ∀ code keyboard, field (keyboard.update code.1 code.2) =
      match key.read code with
      | none => field keyboard
      | some down => down) :
    field (Keyboard.released.follow history) = key.held history := by
  rw [follow_field field (fun _ down => down) key controls, foldl_last, up, Key.held]

theorem follow_plain (field : Keyboard → Bool) (make : UInt8) (up : field .released = false)
    (controls : ∀ scancode next keyboard, field (keyboard.update scancode next) =
      if scancode = make then true else if scancode = make + 0x80 then false
      else field keyboard) :
    field (Keyboard.released.follow history) = (Key.plain make).held history := by
  apply follow_held history field (.plain make) up
  intro code keyboard
  rw [controls, Key.read]
  split_ifs <;> rfl

theorem follow_extended (field : Keyboard → Bool) (make : UInt8) (up : field .released = false)
    (controls : ∀ scancode next keyboard, field (keyboard.update scancode next) =
      if scancode = 0xE0 ∧ next = make then true
      else if scancode = 0xE0 ∧ next = make + 0x80 then false else field keyboard) :
    field (Keyboard.released.follow history) = (Key.extended make).held history := by
  apply follow_held history field (.extended make) up
  intro code keyboard
  rw [controls, Key.read]
  by_cases extended : code.1 = 0xE0
  · simp only [extended, true_and, ne_eq, not_true, if_false]
    split_ifs <;> rfl
  · simp [extended]

theorem follow_leftShift :
    (Keyboard.released.follow history).leftShift = leftShiftKey.held history :=
  follow_plain history Keyboard.leftShift 0x2A rfl fun _ _ _ => by
    rw [update_eq]
    rfl

theorem follow_rightShift :
    (Keyboard.released.follow history).rightShift = rightShiftKey.held history :=
  follow_plain history Keyboard.rightShift 0x36 rfl fun _ _ _ => by
    rw [update_eq]
    rfl

theorem follow_shift : (Keyboard.released.follow history).shift = shiftHeld history := by
  rw [Keyboard.shift, follow_leftShift, follow_rightShift, shiftHeld]

theorem follow_ctrl : (Keyboard.released.follow history).ctrl =
    ((Key.plain 0x1D).held history || (Key.extended 0x1D).held history) := by
  have left := follow_plain history Keyboard.leftCtrl 0x1D rfl fun _ _ _ => by
    rw [update_eq]
    rfl
  have right := follow_extended history Keyboard.rightCtrl 0x1D rfl fun _ _ _ => by
    rw [update_eq]
    rfl
  rw [Keyboard.ctrl, left, right]

theorem follow_alt : (Keyboard.released.follow history).alt =
    ((Key.plain 0x38).held history || (Key.extended 0x38).held history) := by
  have left := follow_plain history Keyboard.leftAlt 0x38 rfl fun _ _ _ => by
    rw [update_eq]
    rfl
  have right := follow_extended history Keyboard.rightAlt 0x38 rfl fun _ _ _ => by
    rw [update_eq]
    rfl
  rw [Keyboard.alt, left, right]

/-- Caps lock has toggled once for each press of its key. -/
theorem follow_caps : (Keyboard.released.follow history).caps = capsOn history := by
  have lock := follow_field (fun keyboard => (keyboard.capsHeld, keyboard.caps)) toggle
    capsLockKey (fun code keyboard => by
      rw [update_eq]
      unfold capsLockKey Key.read toggle
      by_cases down : code.1 = 0x3A
      · cases keyboard.capsHeld <;> simp [down]
      · by_cases up : code.1 = 0xBA <;> simp [down, up]) history .released
  rw [Keyboard.released, toggle_foldl] at lock
  have own := congrArg Prod.snd lock
  rw [Bool.false_xor] at own
  exact own

end

/-- A key of the layout is no modifier. -/
theorem update_layout {scancode : UInt8} {legend : Legend} (key : (scancode, legend) ∈ layout)
    (next : UInt8) (keyboard : Keyboard) : keyboard.update scancode next = keyboard := by
  have code := layout_codes.2 _ key
  have low : scancode ≤ 0x3F := code.1
  have released (pressed : UInt8) (high : 0x3F < pressed) : scancode ≠ pressed := by
    rintro rfl
    exact absurd low (UInt8.not_le.2 high)
  simp only [List.mem_cons, List.not_mem_nil, or_false, not_or] at code
  rw [update_eq]
  simp [code, released]

section
variable {fs : FileSystem} {scancode nextScancode : UInt8} {machine after : Machine}

theorem switchTerminal_keyboard {target : Nat}
    (finished : switchTerminal fs target machine = .ok after) :
    after.keyboard = machine.keyboard := by
  rcases switchTerminal_cases finished with ⟨_, rfl⟩ | ⟨_, _, cases⟩
  · rfl
  · rcases cases with ⟨_, rfl⟩ | ⟨_, ⟨_, rfl⟩ | ⟨slot, frames, _, rfl⟩⟩ <;> rfl

/-- The alt keys may switch the terminal. -/
theorem altSwitch_keyboard {target : Option Nat} {alt : Bool} (finished : (match target with
      | none => .ok machine
      | some next => if alt then switchTerminal fs next machine else .ok machine) =
        Except.ok after) : after.keyboard = machine.keyboard := by
  cases target with
  | none =>
      cases finished
      rfl
  | some next =>
      cases alt with
      | false =>
          cases finished
          rfl
      | true => exact switchTerminal_keyboard finished

/-- A key press updates the modifiers whatever else it does. -/
theorem handleKeypress_keyboard (finished : handleKeypress fs scancode nextScancode machine =
    .ok after) : after.keyboard = machine.keyboard.update scancode nextScancode := by
  have erased (console : Console) : (if scancode = 0x0E then
      { machine with
        keyboard := machine.keyboard.update scancode nextScancode
        console := console }
      else { machine with keyboard := machine.keyboard.update scancode nextScancode }).keyboard =
        machine.keyboard.update scancode nextScancode := by
    split_ifs <;> rfl
  unfold handleKeypress at finished
  dsimp only at finished
  split at finished
  · cases finished
    exact erased _
  · split at finished
    · cases finished
      exact erased _
    · split at finished
      · exact (altSwitch_keyboard finished).trans (erased _)
      · obtain ⟨switched, reached, rfl⟩ := map_ok finished
        exact (altSwitch_keyboard reached).trans (erased _)

/-- Without control and alt a key press edits the input or does nothing. -/
theorem handleKeypress_plain (fs : FileSystem)
    (noAlt : (machine.keyboard.update scancode nextScancode).alt = false)
    (noCtrl : (machine.keyboard.update scancode nextScancode).ctrl = false) :
    handleKeypress fs scancode nextScancode machine = .ok { machine with
      keyboard := machine.keyboard.update scancode nextScancode
      console :=
        if scancode = 0x0E then backspace machine.console
        else
          match (machine.keyboard.update scancode nextScancode).character scancode with
          | none => machine.console
          | some character => typeCharacter character machine.console } := by
  unfold handleKeypress
  by_cases key : scancode = 0x0E
  · subst key
    simp [pressed_backspace, altTarget]
  · unfold Keyboard.character
    simp only [if_neg key, noAlt, noCtrl, Bool.false_and, Bool.false_eq_true, if_false,
      or_false]
    by_cases high : scancode > 0x3F
    · rw [if_pos high, if_pos (.inl high)]
    · rw [if_neg high]
      by_cases silent : (machine.keyboard.update scancode nextScancode).pressed scancode = 0
      · rw [if_pos silent, if_pos (.inr silent)]
        cases altTarget scancode <;> rfl
      · rw [if_neg silent, if_neg (not_or.2 ⟨high, silent⟩)]
        cases altTarget scancode <;> rfl

end

/-- The code that a key event brings. -/
def TypingEvent.code : TypingEvent → Option (UInt8 × UInt8)
  | .key scancode nextScancode => some (scancode, nextScancode)
  | _ => none

/-- The codes of a run in their order. -/
def keyHistory (events : List TypingEvent) : List (UInt8 × UInt8) :=
  events.filterMap TypingEvent.code

/-- The driver starts with all keys up. -/
def freshKeys (machine : Machine) : TypingState :=
  freshTyping { machine with keyboard := .released }

/-- Only key events change the modifiers. -/
theorem typingStep_keyboard {fs : FileSystem} {state next : TypingState} {event : TypingEvent}
    (stepped : typingStep fs state event = .ok next) :
    next.machine.keyboard = event.code.elim state.machine.keyboard
      fun code => state.machine.keyboard.update code.1 code.2 := by
  cases event with
  | key scancode nextScancode =>
      obtain ⟨final, pressed, rfl⟩ := map_ok stepped
      exact handleKeypress_keyboard pressed
  | read fd buffer numBytes index tested =>
      unfold typingStep at stepped
      dsimp only at stepped
      split at stepped
      · cases stepped
      · cases stepped
        rfl
  | write fd buffer characters index =>
      cases stepped
      rfl
  | switch target =>
      obtain ⟨final, switched, rfl⟩ := map_ok stepped
      exact switchTerminal_keyboard switched
  | processes active activeProcess =>
      cases stepped
      rfl

theorem run_keyboard {fs : FileSystem} {machine : Machine} {events : List TypingEvent}
    {state : TypingState} (reached : run (typingStep fs) (freshKeys machine) events = .ok state) :
    state.machine.keyboard = Keyboard.released.follow (keyHistory events) := by
  have followed := run_simulates (fun state keyboard => state.machine.keyboard = keyboard)
    (fun keyboard event => event.code.elim keyboard fun code => keyboard.update code.1 code.2)
    (fun state event next keyboard same stepped => by
      rw [typingStep_keyboard stepped, same]) rfl reached
  rw [followed, Keyboard.follow, keyHistory, List.foldl_filterMap]
  change List.foldl _ Keyboard.released events = _
  congr 1
  funext keyboard event
  cases event.code <;> rfl

/-- The modifiers say which keys are held and how often caps lock was pressed. -/
structure Tracks (history : List (UInt8 × UInt8)) (keyboard : Keyboard) : Prop where
  leftShift : keyboard.leftShift = leftShiftKey.held history
  rightShift : keyboard.rightShift = rightShiftKey.held history
  caps : keyboard.caps = capsOn history

/-- A press of a key appends its character to the buffer of the active terminal. -/
def Appends (fs : FileSystem) (scancode nextScancode character : UInt8) (machine : Machine) :
    Prop :=
  ∃ after, handleKeypress fs scancode nextScancode machine = .ok after ∧
    let index := machine.console.activeTerminalIndex
    (after.console.terminals index).contents =
      (machine.console.terminals index).contents ++ [character]

/-- The buffer gets the character of the tables if there is room for it. -/
theorem typeCharacter_contents (pressed : UInt8) (console : Console) :
    let index := console.activeTerminalIndex
    ((typeCharacter pressed console).terminals index).contents =
      (console.terminals index).contents ++
        if accepts pressed (console.terminals index) then [pressed] else [] := by
  dsimp only
  cases room : accepts pressed (console.terminals console.activeTerminalIndex) with
  | false =>
      rw [typeCharacter_refused room, if_neg Bool.false_ne_true, List.append_nil]
  | true =>
      obtain ⟨posX, posY, terminals⟩ := typeCharacter_terminals room
      rw [terminals, Console.setTerminal_self, if_pos rfl]
      exact Terminal.contents_storeCharacter pressed _

/-- A press appends the character if and only if the tables have it. -/
theorem appends_iff {fs : FileSystem} {scancode character : UInt8} {legend : Legend}
    {machine : Machine} (nextScancode : UInt8) (key : (scancode, legend) ∈ layout)
    (noAlt : machine.keyboard.alt = false) (noCtrl : machine.keyboard.ctrl = false)
    (room : accepts character
      (machine.console.terminals machine.console.activeTerminalIndex) = true) :
    Appends fs scancode nextScancode character machine ↔
      machine.keyboard.pressed scancode = character := by
  have code := layout_codes.2 _ key
  have visible : machine.keyboard.pressed scancode ≠ 0 :=
    (tableCharacter_layout machine.keyboard.shift machine.keyboard.caps _ key).2
  have other : scancode ≠ 0x0E := by
    rintro rfl
    exact code.2 List.mem_cons_self
  have same := update_layout key nextScancode machine.keyboard
  have yields : machine.keyboard.character scancode =
      some (machine.keyboard.pressed scancode) := by
    have low : ¬scancode > 0x3F := UInt8.not_lt.2 code.1
    unfold Keyboard.character
    rw [noAlt, noCtrl, if_neg]
    simp [low, visible]
  have finished := @handleKeypress_plain scancode nextScancode machine fs (by rw [same, noAlt])
    (by rw [same, noCtrl])
  rw [same, if_neg other, yields] at finished
  unfold Appends
  dsimp only at finished ⊢
  rw [finished]
  simp only [Except.ok.injEq, exists_eq_left', typeCharacter_contents]
  rw [List.append_cancel_left_eq]
  constructor
  · intro appended
    split at appended
    · exact List.singleton_inj.1 appended
    · cases appended
  · rintro rfl
    rw [if_pos room]

/-- After every run of the input the modifiers are right, and a press of a character key appends
its character if and only if the key is not misprinted in the tables. -/
theorem keyboard_layout_iff {fs : FileSystem} {machine : Machine} {events : List TypingEvent}
    {state : TypingState} {scancode : UInt8} {legend : Legend} (nextScancode : UInt8)
    (reached : run (typingStep fs) (freshKeys machine) events = .ok state)
    (key : (scancode, legend) ∈ layout) (plain : commandHeld (keyHistory events) = false) :
    let shift := shiftHeld (keyHistory events)
    let caps := capsOn (keyHistory events)
    let index := state.machine.console.activeTerminalIndex
    accepts (legend.character shift caps) (state.machine.console.terminals index) = true →
      ((Tracks (keyHistory events) state.machine.keyboard ∧
        Appends fs scancode nextScancode (legend.character shift caps) state.machine) ↔
          ¬legend.Misprinted shift caps) := by
  intro shift caps index room
  have keyboard := run_keyboard reached
  simp only [commandHeld, commandKeys, List.any_cons, List.any_nil, Bool.or_eq_false_iff] at plain
  obtain ⟨leftCtrl, rightCtrl, leftAlt, rightAlt, _⟩ := plain
  have noCtrl : state.machine.keyboard.ctrl = false := by
    rw [keyboard, follow_ctrl, leftCtrl, rightCtrl, Bool.or_false]
  have noAlt : state.machine.keyboard.alt = false := by
    rw [keyboard, follow_alt, leftAlt, rightAlt, Bool.or_false]
  have tracks : Tracks (keyHistory events) state.machine.keyboard := by
    rw [keyboard]
    exact ⟨follow_leftShift _, follow_rightShift _, follow_caps _⟩
  rw [and_iff_right tracks, appends_iff nextScancode key noAlt noCtrl room, pressed_eq, keyboard,
    follow_shift, follow_caps]
  exact (tableCharacter_layout shift caps _ key).1

/-- Caps lock pressed, repeated and released, then a shift and a letter. -/
def capsEvents : List TypingEvent :=
  [.key 0x3A 0, .key 0x3A 0, .key 0xBA 0, .key 0x2A 0, .key 0x1E 0, .key 0x9E 0]

theorem keyboard_layout_capsEvents :
    ∃ state, run (typingStep shellImage) (freshKeys coldMachine) capsEvents = .ok state ∧
      shiftHeld (keyHistory capsEvents) = true ∧ capsOn (keyHistory capsEvents) = true ∧
        Appends shellImage 0x1F 0 115 state.machine := by
  have passed : runCheck (typingStep shellImage) (freshKeys coldMachine) capsEvents
      (fun state => accepts 115
        (state.machine.console.terminals state.machine.console.activeTerminalIndex)) = true := by
    decide +kernel
  obtain ⟨state, reached, room⟩ := runCheck_sound passed
  have key : (0x1F, Legend.letter 's') ∈ layout := by simp [layout, keyRow]
  have exact := keyboard_layout_iff 0 reached key (by decide) room
  exact ⟨state, reached, by decide, by decide, (exact.2 (by decide)).2⟩

/-- With caps lock on, the enter key has a backslash. -/
theorem keyboard_layout_enter :
    ∃ state, run (typingStep shellImage) (freshKeys coldMachine) [.key 0x3A 0] = .ok state ∧
      accepts 10 (state.machine.console.terminals state.machine.console.activeTerminalIndex) =
        true ∧ commandHeld (keyHistory [.key 0x3A 0]) = false ∧ (0x1C, Legend.enter) ∈ layout ∧
          ¬Appends shellImage 0x1C 0 10 state.machine := by
  have passed : runCheck (typingStep shellImage) (freshKeys coldMachine) [.key 0x3A 0]
      (fun state => accepts 10
          (state.machine.console.terminals state.machine.console.activeTerminalIndex) &&
        !state.machine.keyboard.alt && !state.machine.keyboard.ctrl &&
          state.machine.keyboard.pressed 0x1C == 92) = true := by
    decide +kernel
  obtain ⟨state, reached, checked⟩ := runCheck_sound passed
  simp only [Bool.and_eq_true, Bool.not_eq_true', beq_iff_eq] at checked
  obtain ⟨⟨⟨room, noAlt⟩, noCtrl⟩, printed⟩ := checked
  have key : (0x1C, Legend.enter) ∈ layout := by simp [layout, keyRow]
  refine ⟨state, reached, room, by decide, key, ?_⟩
  rw [appends_iff 0 key noAlt noCtrl room, printed]
  decide

end ComputerSystems.Kernel
