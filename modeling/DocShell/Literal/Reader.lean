import DocShell.Error

set_option autoImplicit false

/-! # Readers

A reader takes what it wants from the beginning of a text and hands on the rest, which is
always shorter. Loops over readers therefore end, and no reader can stand still. A reader
that refuses the text says why, and from where on it could not go on.
-/

namespace DocShell

/-- Why a reader refused a text, and the tail of the text at which it did. -/
structure Fault where
  reason : Reason
  rest : List Char
deriving DecidableEq

/-- The fault as an error of the whole text. -/
def Fault.toError (text : List Char) (fault : Fault) : SyntaxError :=
  ⟨fault.reason, some (Text.offsetOf text fault.rest)⟩

/-- What was read from the beginning of `cs`, and the text that follows it. -/
structure Parsed (α : Type) (cs : List Char) where
  value : α
  rest : List Char
  shorter : rest.length < cs.length

namespace Parsed

variable {α β : Type} {cs ds : List Char}

/-- Changes what was read. -/
def map (f : α → β) (p : Parsed α cs) : Parsed β cs :=
  ⟨f p.value, p.rest, p.shorter⟩

/-- What was read from a tail, as read from the whole. -/
def within (p : Parsed α ds) (h : ds.length ≤ cs.length) : Parsed α cs :=
  ⟨p.value, p.rest, Nat.lt_of_lt_of_le p.shorter h⟩

end Parsed

/-- Reads an `α` from the beginning of a text. -/
abbrev Reader (α : Type) := (cs : List Char) → Except Fault (Parsed α cs)

namespace Reader

variable {α β : Type}

/-- Changes what is read. -/
def map (f : α → β) (r : Reader α) : Reader β :=
  fun cs => (r cs).map (·.map f)

/-- One certain character, after white space. -/
def expect (wanted : Char) : Reader Unit := fun cs =>
  match h : Text.trimStart cs with
  | [] => .error ⟨.expected wanted none, []⟩
  | c :: rest =>
    if c = wanted then
      .ok ⟨(), rest, by have := Text.length_trimStart_le cs; simp [h] at this; omega⟩
    else .error ⟨.expected wanted (some c), c :: rest⟩

/-- Items with commas between them, up to and with the closing bracket of the container. -/
def items (container : Container) (item : Reader α) (cs : List Char) :
    Except Fault (Parsed (List α) cs) :=
  match item cs with
  | .error fault => .error fault
  | .ok first =>
    match h : Text.trimStart first.rest with
    | [] => .error ⟨.unclosed container, []⟩
    | c :: rest =>
      have shorter : rest.length < cs.length := by
        have := Text.length_trimStart_le first.rest
        have := first.shorter
        simp only [h, List.length_cons] at *
        omega
      if c = ',' then
        if (Text.trimStart rest).head? = some container.closing then
          .error ⟨.trailingComma container, Text.trimStart rest⟩
        else
          match items container item rest with
          | .error fault => .error fault
          | .ok more =>
            .ok ⟨first.value :: more.value, more.rest, Nat.lt_trans more.shorter shorter⟩
      else if c = container.closing then .ok ⟨[first.value], rest, shorter⟩
      else .error ⟨.noSeparator container c, c :: rest⟩
termination_by cs.length

/-- What stands in a container after its opening bracket: nothing, or items. -/
def contents (container : Container) (item : Reader α) : Reader (List α) := fun cs =>
  match h : Text.trimStart cs with
  | [] => items container item cs
  | c :: rest =>
    if c = container.closing then
      .ok ⟨[], rest, by have := Text.length_trimStart_le cs; simp [h] at this; omega⟩
    else items container item cs

end Reader

end DocShell
