import ComputerSystems.Construction.Kernel.Terminal
import ComputerSystems.Library.Confined

namespace ComputerSystems.Kernel
open ComputerSystems.Library

/-- A buffer of characters, by the distance from its first byte. -/
abbrev Scratch := Logged Nat UInt8

/-- A bound on the rounds of each loop over a scratch buffer. -/
abbrev scratchSize : Nat := 64

def lookup : List UInt8 :=
  ['0', '1', '2', '3', '4', '5', '6', '7', '8', '9', 'A', 'B', 'C', 'D', 'E', 'F', 'G', 'H', 'I',
    'J', 'K', 'L', 'M', 'N', 'O', 'P', 'Q', 'R', 'S', 'T', 'U', 'V', 'W', 'X', 'Y', 'Z'].map
      fun char => UInt8.ofNat char.toNat

def strlen (s : Nat) (scratch : Scratch) : Nat × Scratch :=
  let stop := whileLoop (fun state : Nat × Scratch => state.2.memory (s + state.1) != 0)
    (fun state => (state.1 + 1, (state.2.load (s + state.1)).2)) scratchSize (0, scratch)
  (stop.1, (stop.2.load (s + stop.1)).2)

/-- The two indices of a reversal. -/
structure Reversal where
  first : Nat
  last : Nat
  scratch : Scratch

def swapBytes (s : Nat) (reversal : Reversal) : Reversal :=
  let tmp := reversal.scratch.load (s + reversal.last)
  let front := tmp.2.load (s + reversal.first)
  { first := reversal.first + 1
    last := reversal.last - 1
    scratch := (front.2.store (s + reversal.last) front.1).store (s + reversal.first) tmp.1 }

def reverseLoop (s : Nat) (reversal : Reversal) : Reversal :=
  whileLoop (fun reversal => reversal.first < reversal.last) (swapBytes s) scratchSize reversal

/-- The last index of an empty string is minus one in the source, and there is no round either. -/
def strrev (s : Nat) (scratch : Scratch) : Scratch :=
  let length := strlen s scratch
  (reverseLoop s ⟨0, length.1 - 1, length.2⟩).scratch

/-- The copy for user programs returns early on a short string. -/
def ece391Strrev (s : Nat) (scratch : Scratch) : Scratch :=
  let length := strlen s scratch
  if length.1 - 1 ≤ 0 then length.2 else (reverseLoop s ⟨0, length.1 - 1, length.2⟩).scratch

/-- The digits that are written, from the lowest on. -/
structure DigitLoop where
  newval : Nat
  newbuf : Nat
  scratch : Scratch

def writeDigit (radix : Nat) (state : DigitLoop) : DigitLoop where
  newval := state.newval / radix
  newbuf := state.newbuf + 1
  scratch := state.scratch.store state.newbuf (lookup.getD (state.newval % radix) 0)

/-- A number has at most one digit for each of its bits. -/
def itoaWith (reverse : Nat → Scratch → Scratch) (value : BitVec 32) (buf radix : Nat)
    (scratch : Scratch) : Scratch :=
  if value = 0 then (scratch.store buf 48).store (buf + 1) 0
  else
    let written := whileLoop (fun state : DigitLoop => 0 < state.newval) (writeDigit radix) 32
      ⟨value.toNat, buf, scratch⟩
    reverse buf (written.scratch.store written.newbuf 0)

def itoa : BitVec 32 → Nat → Nat → Scratch → Scratch := itoaWith strrev

def ece391Itoa : BitVec 32 → Nat → Nat → Scratch → Scratch := itoaWith ece391Strrev

def putc (c : UInt8) (console : Console) : Console :=
  terminalPutc c attrib console.activeTerminalIndex console

def puts (s : Nat) (scratch : Scratch) (console : Console) : Console × Scratch :=
  let stop := whileLoop
    (fun state : Nat × Console × Scratch => state.2.2.memory (s + state.1) != 0)
    (fun state =>
      let loaded := state.2.2.load (s + state.1)
      (state.1 + 1, putc loaded.1 state.2.1, loaded.2))
    scratchSize (0, console, scratch)
  (stop.2.1, (stop.2.2.load (s + stop.1)).2)

/-- An argument of `%s` points to a string in memory. -/
def putsString (text : CString) (console : Console) : Console :=
  text.bytes.foldl (fun console c => putc c console) console

def printHexadecimal (value : BitVec 32) (scratch : Scratch) (console : Console) :
    Console × Scratch :=
  puts 0 (itoa value 0 16 scratch) console

/-- The digits go into the upper part of the buffer, and the zeros go before them. -/
def printAlternate (value : BitVec 32) (scratch : Scratch) (console : Console) :
    Console × Scratch :=
  let startingIndex := strlen 8 (itoa value 8 16 scratch)
  let padded := whileLoop (fun state : Nat × Scratch => state.1 < 8)
    (fun state => (state.1 + 1, state.2.store state.1 48)) 8 startingIndex
  puts startingIndex.1 padded.2 console

def printUnsigned (value : BitVec 32) (scratch : Scratch) (console : Console) :
    Console × Scratch :=
  puts 0 (itoa value 0 10 scratch) console

/-- The negation wraps at 32 bits. -/
def printSigned (value : BitVec 32) (scratch : Scratch) (console : Console) :
    Console × Scratch :=
  if value.toInt < 0 then puts 0 (itoa (-value) 1 10 (scratch.store 0 45)) console
  else puts 0 (itoa value 0 10 scratch) console

/-- The format is read as text or after a percent sign. -/
inductive PrintMode where
  | text
  | conversion (alternate : Bool)
  deriving DecidableEq

/-- The indices into the format and into the arguments, and the indices that were read. -/
structure Printing where
  mode : PrintMode
  buf : Nat
  esp : Nat
  console : Console
  read : List Nat

/-- What a call of `printf` works on. A word of the stack may point to a string, and each
conversion finds other bytes in its buffer. -/
structure PrintCall where
  format : Nat → UInt8
  arguments : Nat → BitVec 32
  strings : BitVec 32 → CString
  stack : Nat → Nat → UInt8

/-- The conversion of one letter. An unknown letter prints nothing. -/
def convert (call : PrintCall) (letter : UInt8) (alternate : Bool) (state : Printing) : Printing :=
  let value := call.arguments state.esp
  let scratch : Scratch := ⟨call.stack state.buf, []⟩
  if letter = 37 then { state with console := putc 37 state.console }
  else if letter = 120 then
    { state with
      console := if alternate then (printAlternate value scratch state.console).1
        else (printHexadecimal value scratch state.console).1
      esp := state.esp + 1 }
  else if letter = 117 then
    { state with
      console := (printUnsigned value scratch state.console).1
      esp := state.esp + 1 }
  else if letter = 100 then
    { state with
      console := (printSigned value scratch state.console).1
      esp := state.esp + 1 }
  else if letter = 99 then
    { state with
      console := putc (UInt8.ofBitVec (value.setWidth 8)) state.console
      esp := state.esp + 1 }
  else if letter = 115 then
    { state with
      console := putsString (call.strings value) state.console
      esp := state.esp + 1 }
  else state

/-- One character of the format. A number sign stays before the letter. -/
def printfRound (call : PrintCall) (state : Printing) : (Nat × Printing) ⊕ Printing :=
  let letter := call.format state.buf
  let next := { state with buf := state.buf + 1, read := state.buf :: state.read }
  match state.mode with
  | .text =>
      if letter = 0 then .inl (state.buf, { state with read := state.buf :: state.read })
      else if letter = 37 then .inr { next with mode := .conversion false }
      else .inr { next with console := putc letter state.console }
  | .conversion alternate =>
      if letter = 35 then .inr { next with mode := .conversion true }
      else
        let converted := convert call letter alternate state
        .inr { converted with mode := .text, buf := next.buf, read := next.read }

/-- A call returns the index at which it stops. -/
def Printf (call : PrintCall) (console : Console) (result : Nat × Printing) : Prop :=
  ∃ fuel, returnLoop (printfRound call) fuel ⟨.text, 0, 0, console, []⟩ = some result

end ComputerSystems.Kernel
