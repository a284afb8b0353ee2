import ComputerSystems.Library.Cdecl

namespace ComputerSystems.Library.Cdecl

open Ia32

/-- What is known of a word, by the registers and the stack pointer of an origin: a function's
entry or another state that the words are named after. A frame is some words below the stack pointer
there. -/
inductive Value (Label : Type) where
  | entry (name : Register)
  | frame (words : Nat)
  | code (label : Label)
  | any
  deriving DecidableEq

/-- What is known of the saved registers, and of the words on the stack below the stack pointer of
the origin, the last pushed one first. -/
structure Shape (Label : Type) where
  ebx : Value Label
  esi : Value Label
  edi : Value Label
  ebp : Value Label
  words : List (Value Label)
  deriving DecidableEq

section
variable {Label Helper : Type}

namespace Shape

def get (shape : Shape Label) : Register → Value Label
  | .ebx => shape.ebx
  | .esi => shape.esi
  | .edi => shape.edi
  | .ebp => shape.ebp
  | _ => .any

/-- The stack pointer changes only with the words on the stack. -/
def set (value : Value Label) (shape : Shape Label) : Register → Option (Shape Label)
  | .esp => none
  | .ebx => some { shape with ebx := value }
  | .esi => some { shape with esi := value }
  | .edi => some { shape with edi := value }
  | .ebp => some { shape with ebp := value }
  | _ => some shape

def value (shape : Shape Label) : Operand → Value Label
  | .register .esp => .frame shape.words.length
  | .register name => shape.get name
  | _ => .any

def push (room : Nat) (value : Value Label) (shape : Shape Label) : Option (Shape Label) :=
  if shape.words.length < room then some { shape with words := value :: shape.words } else none

/-- The first words are gone. -/
def drop (count : Nat) (shape : Shape Label) : Option (Shape Label) :=
  if count ≤ shape.words.length then some { shape with words := shape.words.drop count } else none

def pop (target : Register) (shape : Shape Label) : Option (Shape Label) :=
  match shape.words with
  | [] => none
  | value :: words => { shape with words := words }.set value target

/-- The effect of an instruction on what is known. There is none where the stack pointer would be
lost or a word on the stack would be written over. -/
def transfer (room : Nat) (shape : Shape Label) :
    Instruction Label Helper → Option (Shape Label)
  | .mov .long source target => shape.set (shape.value source) target
  | .mov _ _ target => shape.set .any target
  | .movTo _ _ target => if target.inStack then none else some shape
  | .movzwl _ target => shape.set .any target
  | .xorl _ target => shape.set .any target
  | .decw target => shape.set .any target
  | .shl _ target => shape.set .any target
  | .shr _ target => shape.set .any target
  | .addl value .esp => if value.toNat % 4 = 0 then shape.drop (value.toNat / 4) else none
  | .addl _ target => shape.set .any target
  | .cmp _ _ _ => some shape
  | .pushl source => shape.push room (shape.value source)
  | .popl target => shape.pop target
  | .leave =>
      match shape.ebp with
      | .frame words =>
          if words ≤ shape.words.length then
            (shape.drop (shape.words.length - words)).bind (pop .ebp)
          else none
      | _ => none
  | _ => some shape

/-- The labels that a block can go to, with what is known there. No label stands for a return to the
caller. A call needs its arguments on the stack, and they are lost. -/
def exits (room : Nat) (arguments : Helper → Nat) (next : Option Label) :
    List (Instruction Label Helper) → Shape Label → Option (List (Option Label × Shape Label))
  | [], shape => next.map fun next => [(some next, shape)]
  | .je label :: rest, shape =>
      (exits room arguments next rest shape).map ((some label, shape) :: ·)
  | .jne label :: rest, shape =>
      (exits room arguments next rest shape).map ((some label, shape) :: ·)
  | .ja label :: rest, shape =>
      (exits room arguments next rest shape).map ((some label, shape) :: ·)
  | .jmp label :: _, shape => some [(some label, shape)]
  | .jmpTable table _ :: _, shape => some (table.map fun label => (some label, shape))
  | .call label :: _, shape => do
      let next ← next
      let called ← shape.push room (.code next)
      return [(some label, called)]
  | .callHelper helper :: _, shape => do
      let next ← next
      let _ ← shape.push room (.code next)
      let rest ← shape.drop (arguments helper)
      let words := List.replicate (arguments helper) .any ++ rest.words
      return [(some next, { shape with words := words })]
  | .ret :: _, shape =>
      match shape.words with
      | [] => some [(none, shape)]
      | .code label :: words => some [(some label, { shape with words := words })]
      | _ => none
  | instruction :: rest, shape =>
      (shape.transfer room instruction).bind (exits room arguments next rest)

variable [DecidableEq Label]

/-- Whether a word is known to be what another one is said to be. -/
def covers (known said : Value Label) : Bool := said = .any || known = said

/-- Whether all that is said of a state is known of it. -/
def le (known said : Shape Label) : Bool :=
  covers known.ebx said.ebx && covers known.esi said.esi && covers known.edi said.edi &&
    covers known.ebp said.ebp && known.words.length == said.words.length &&
      (known.words.zip said.words).all fun words => covers words.1 words.2

end Shape

/-- The shapes that are said to occur at each label, and the words that the saved registers are said
to hold at a return. -/
structure Typing (Label Helper : Type) where
  room : Nat
  arguments : Helper → Nat
  shapes : Label → List (Shape Label)
  final : Register → Value Label

variable [DecidableEq Label]

/-- Each block leads from the shapes at its label to those at the labels that it goes to. -/
def Typing.accepts (typing : Typing Label Helper) (code : Code Label Helper) (label : Label) :
    Bool :=
  (typing.shapes label).all fun shape =>
    match shape.exits typing.room typing.arguments (code.next label) (code.block label) with
    | none => false
    | some exits => exits.all fun
        | (some label, shape) => (typing.shapes label).any fun said => shape.le said
        | (none, shape) => calleeSaved.all fun name => Shape.covers (shape.get name)
            (typing.final name)

end

end ComputerSystems.Library.Cdecl
