import DocShell.Literal.Reader

set_option autoImplicit false

/-! # Quoted strings

A string stands between two equal quotes. A character is spelled by itself, by one of the
escapes of a backslash and a letter, by a byte escape of two digits, by a code point escape of
four digits, or by a surrogate pair of two such escapes; a backslash before any other
character spells that character. A backslash before a line break spells nothing, so that a
string may go on in the next line; a line break without it ends the text of the string
unfinished.
-/

namespace DocShell.Quoted

/-- Whether the code is the first half of a surrogate pair. -/
def isHighSurrogate (code : Nat) : Bool :=
  0xD800 ≤ code && code < 0xDC00

/-- Whether the code is the second half of a surrogate pair. -/
def isLowSurrogate (code : Nat) : Bool :=
  0xDC00 ≤ code && code < 0xE000

/-- The character that a surrogate pair stands for. -/
def joinSurrogates (high low : Nat) : Char :=
  Char.ofNat (0x10000 + (high - 0xD800) * 0x400 + (low - 0xDC00))

/-- The character that a backslash and this character spell, if they spell one by
themselves: a control character for seven of them, the character itself for the others. -/
def escaped (c : Char) : Char :=
  if c = 'n' then '\n'
  else if c = 't' then '\t'
  else if c = 'r' then '\r'
  else if c = 'b' then '\x08'
  else if c = 'f' then '\x0c'
  else if c = 'v' then '\x0b'
  else if c = '0' then '\x00'
  else c

/-- The two digits of a byte escape, and what follows them. -/
def byteEscape (cs : List Char) : Except Fault (Char × List Char) :=
  match Text.hexNumber? 2 cs with
  | none => .error ⟨.badByteEscape, cs⟩
  | some code => .ok (Char.ofNat code, cs.drop 2)

/-- The four digits of a code point escape, with the second escape of a surrogate pair, and
what follows them. -/
def codeEscape (cs : List Char) : Except Fault (Char × List Char) :=
  match Text.hexNumber? 4 cs with
  | none => .error ⟨.badCodeEscape, cs⟩
  | some code =>
    if isHighSurrogate code then
      match cs.drop 4 with
      | '\\' :: 'u' :: ds =>
        match Text.hexNumber? 4 ds with
        | none => .error ⟨.badCodeEscape, ds⟩
        | some low =>
          if isLowSurrogate low then .ok (joinSurrogates code low, ds.drop 4)
          else .error ⟨.unpairedSurrogate, cs⟩
      | _ => .error ⟨.unpairedSurrogate, cs⟩
    else if isLowSurrogate code then .error ⟨.badCodeEscape, cs⟩
    else .ok (Char.ofNat code, cs.drop 4)

theorem length_byteEscape_le {cs rest : List Char} {c : Char}
    (h : byteEscape cs = .ok (c, rest)) : rest.length ≤ cs.length := by
  unfold byteEscape at h
  split at h
  · contradiction
  · injection h with h
    injection h with _ h
    simp [← h]

theorem length_codeEscape_le {cs rest : List Char} {c : Char}
    (h : codeEscape cs = .ok (c, rest)) : rest.length ≤ cs.length := by
  unfold codeEscape at h
  split at h
  · contradiction
  · split at h
    · split at h
      · rename_i ds hds
        have hlen := congrArg List.length hds
        split at h
        · contradiction
        · split at h
          · injection h with h
            injection h with _ h
            subst h
            simp only [List.length_drop, List.length_cons] at *
            omega
          · contradiction
      · contradiction
    · split at h
      · contradiction
      · injection h with h
        injection h with _ h
        subst h
        simp

/-- What follows a carriage return that a backslash stands before: a line feed belongs to the
same line break. -/
def afterReturn : List Char → List Char
  | '\n' :: cs => cs
  | cs => cs

theorem length_afterReturn_le (cs : List Char) : (afterReturn cs).length ≤ cs.length := by
  unfold afterReturn
  split <;> simp

/-- What follows a backslash: the character it spells, or nothing for a line break. The text
ends unfinished at `opening`, the tail that begins with the quote. -/
def escape (opening : List Char) : Reader (Option Char)
  | [] => .error ⟨.unterminatedString, opening⟩
  | c :: cs =>
    if c = 'x' then
      match h : byteEscape cs with
      | .error fault => .error fault
      | .ok (d, rest) => .ok ⟨some d, rest, Nat.lt_succ_of_le (length_byteEscape_le h)⟩
    else if c = 'u' then
      match h : codeEscape cs with
      | .error fault => .error fault
      | .ok (d, rest) => .ok ⟨some d, rest, Nat.lt_succ_of_le (length_codeEscape_le h)⟩
    else if c = '\n' then .ok ⟨none, cs, by simp⟩
    else if c = '\r' then
      .ok ⟨none, afterReturn cs, Nat.lt_succ_of_le (length_afterReturn_le cs)⟩
    else .ok ⟨some (escaped c), cs, by simp⟩

/-- What stands after the opening quote, up to and with the closing one. -/
def body (quote : Char) (opening cs : List Char) : Except Fault (Parsed (List Char) cs) :=
  match cs with
  | [] => .error ⟨.unterminatedString, opening⟩
  | c :: cs =>
    if c = quote then .ok ⟨[], cs, by simp⟩
    else if c = '\n' ∨ c = '\r' then .error ⟨.unterminatedString, opening⟩
    else if c = '\\' then
      match escape opening cs with
      | .error fault => .error fault
      | .ok spelled =>
        match body quote opening spelled.rest with
        | .error fault => .error fault
        | .ok more =>
          .ok ⟨spelled.value.toList ++ more.value, more.rest, by
            have := spelled.shorter
            have := more.shorter
            simp only [List.length_cons]
            omega⟩
    else
      match body quote opening cs with
      | .error fault => .error fault
      | .ok more => .ok ⟨c :: more.value, more.rest, Nat.lt_succ_of_lt more.shorter⟩
termination_by cs.length
decreasing_by
  · have := spelled.shorter
    simp only [List.length_cons]
    omega
  · simp

/-- Whether `c` opens a string. -/
def isQuote (c : Char) : Bool :=
  c == '"' || c == '\x27'

/-- The string that begins with the given quote, which has been read. -/
def text (quote : Char) (cs : List Char) : Except Fault (Parsed String (quote :: cs)) :=
  (body quote (quote :: cs) cs).map fun p =>
    (p.map String.ofList).within (by simp)

end DocShell.Quoted
