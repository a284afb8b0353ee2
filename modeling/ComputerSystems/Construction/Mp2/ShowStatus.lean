import ComputerSystems.Construction.Mp2.ShowScreen
import ComputerSystems.Library.CString
import ComputerSystems.Library.Numeral

namespace ComputerSystems.Mp2

open Library Chars

abbrev widthPix : Nat := 320
abbrev heightPix : Nat := 18

/-- The bytes of `drawbuf` by row and column, with a log of their writes. -/
abbrev DrawBuf := Logged (Int × Int) UInt8

/-- The color of the characters. -/
def on : UInt8 := 0x0F

def colors : List UInt8 := [0x00, 0x01, 0x02, 0x03, 0x04, 0x05, 0x06, 0x07, 0x08, 0x09]

/-- The color around the characters after `_changecolor`. -/
def off (lvl : Nat) : UInt8 := colors.getD (lvl - 1) 0

def bitmask : List UInt8 := [0x80, 0x40, 0x20, 0x10, 0x08, 0x04, 0x02, 0x01]

/-- A loop of the source over a half-open range. -/
def forRange (start stop : Int) (body : Int → DrawBuf → DrawBuf) (buff : DrawBuf) : DrawBuf :=
  forLoop (fun round => body (start + round)) 0 (stop - start).toNat buff

/-- The rows of the characters at the columns from `start` to `stop`. The font has sixteen bytes
for each character, and the characters are signed. -/
def convasc (font : Int → Nat → UInt8) (off : UInt8) (letter : List Int) (start stop : Int)
    (buff : DrawBuf) : DrawBuf :=
  forLoop (fun count =>
    let i := start + 8 * count
    forLoop (fun j =>
      forLoop (fun k buff =>
        let mask := bitmask.getD k 0
        if font (letter.getD count 0) (j - 1) &&& mask = mask then buff.store (j, i + k) on
        else buff.store (j, i + k) off) 0 8) 1 (heightPix - 2))
    0 ((stop - start + 7) / 8).toNat buff

def strbuff (font : Int → Nat → UInt8) (input : List UInt8) (lvl : Nat) (buff : DrawBuf) :
    DrawBuf :=
  let off := off lvl
  let len : Int := input.length
  let gap := (8 * (40 - len)).tdiv 2
  let rows := forRange 0 widthPix
    (fun i buff => (buff.store (0, i) off).store (heightPix - 1, i) off) buff
  let front := forRange 0 gap
    (fun i => forRange 0 heightPix fun j buff => buff.store (j, i) off) rows
  let letter := input.map fun char => char.toInt8.toInt
  let written := convasc font off letter gap (gap + len * 8) front
  forRange (gap + len * 8) widthPix
    (fun i => forRange 0 heightPix fun j buff => buff.store (j, i) off) written

/-- The format with a zero in front of a single digit. -/
def zeroPadded (value : Nat) : List UInt8 :=
  if value < 10 then digitChar 0 :: numeral 10 value else numeral 10 value

/-- The arrays of `show_status` on the stack, with the sizes of those whose size varies. -/
structure StatusText where
  levlen : Nat
  frootilen : Nat
  wordlength : Nat
  level : Chars
  frooti : Chars
  tiempo : Chars
  words : Chars

/-- The size of `tiempo`. -/
abbrev tiempoSize : Nat := 6

/-- The text of the status bar. The arrays have arbitrary content before. -/
def statusText (fuel : Nat) (unset : Nat → UInt8) (lvl tick froot : Nat) : Option StatusText := do
  let separ := ascii "    "
  let seplen := separ.length
  let totSec := tick / 32
  let minutes := totSec / 60
  let remSec := totSec % 60
  let fruti := if froot = 1 then ascii " fruit" else ascii " fruits"
  let frulen := fruti.length
  let levlen := if lvl < 10 then 2 else 3
  let frootilen := if froot < 10 then 2 else 3
  let level := sprintf (numeral 10 lvl) ⟨unset, []⟩
  let frooti := sprintf (numeral 10 froot) ⟨unset, []⟩
  let tiempo := sprintf (zeroPadded minutes ++ ascii ":" ++ zeroPadded remSec) ⟨unset, []⟩
  let (_, words) ← strcpy fuel (literal (ascii "Level ")) ⟨unset, []⟩
  let (level, words) ← strcat fuel level words
  let (_, words) ← strcat fuel (literal separ) words
  let (frooti, words) ← strcat fuel frooti words
  let (_, words) ← strcat fuel (literal fruti) words
  let (_, words) ← strcat fuel (literal separ) words
  let (tiempo, words) ← strcat fuel tiempo words
  return {
    levlen := levlen
    frootilen := frootilen
    wordlength := 6 + levlen + 2 * seplen + frulen + frootilen + 6
    level := level
    frooti := frooti
    tiempo := tiempo
    words := words }

/-- The four plane buffers and the counters of the split. -/
structure Planes where
  plane : Nat → Nat → UInt8
  c : Nat → Nat

/-- One pixel goes to the buffer of its plane. -/
def Planes.put (drawbuf : DrawBuf) (j i : Nat) (planes : Planes) : Planes :=
  let n := i % 4
  { plane := Function.update planes.plane n
      (Function.update (planes.plane n) (planes.c n) (drawbuf.memory (j, i)))
    c := Function.update planes.c n (planes.c n + 1) }

/-- The split of the buffer into planes. -/
def splitPlanes (drawbuf : DrawBuf) (plane : Nat → Nat → UInt8) : Planes :=
  forLoop (fun j => forLoop (Planes.put drawbuf j) 0 widthPix) 0 heightPix ⟨plane, fun _ => 0⟩

/-- The bytes of one plane of the status bar. -/
abbrev barSize : Nat := 1440

def Video.copyBar (img : Nat → UInt8) (scrAddr : Nat) (video : Video) : Video :=
  forLoop (fun i => store (scrAddr + i) (img i)) 0 barSize video

/-- What the status bar changes. -/
structure StatusBar where
  text : StatusText
  drawbuf : DrawBuf
  planes : Planes
  video : Video

/-- `show_status` without the palette. -/
def showStatus (font : Int → Nat → UInt8) (fuel : Nat) (unset : Nat → UInt8)
    (lvl tick froot : Nat) (drawbuf : DrawBuf) (plane : Nat → Nat → UInt8) (video : Video) :
    Option StatusBar := do
  let text ← statusText fuel unset lvl tick froot
  let (len, words) ← strend fuel 0 text.words
  let input := (List.range len).map words.memory
  let drawn := strbuff font input lvl drawbuf
  let planes := splitPlanes drawn plane
  let copied := forLoop (fun n video =>
    (video.setWriteMask (0x0100 <<< n)).copyBar (planes.plane n) 0) 0 4 video
  return ⟨{ text with words := words }, drawn, planes, copied⟩

end ComputerSystems.Mp2
