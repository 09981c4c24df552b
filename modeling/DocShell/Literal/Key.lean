import DocShell.Literal.Quoted

set_option autoImplicit false

/-! # Bare words and keys

A bare word is a run of ASCII letters, digits, `_` and `$`. An object key is a bare word or a
quoted string.
-/

namespace DocShell

namespace Word

/-- Characters of a bare word. -/
def isWordChar (c : Char) : Bool :=
  c.isAlphanum || c == '_' || c == '$'

/-- The word at the beginning of the text. -/
def leading (cs : List Char) : List Char :=
  cs.takeWhile isWordChar

/-- What follows the word at the beginning of the text. -/
def after (cs : List Char) : List Char :=
  cs.dropWhile isWordChar

theorem length_after_le (cs : List Char) : (after cs).length ≤ cs.length :=
  (List.dropWhile_suffix _).length_le

theorem length_after_lt {c : Char} (h : isWordChar c = true) (cs : List Char) :
    (after (c :: cs)).length < (c :: cs).length := by
  simpa [after, h] using Nat.lt_succ_of_le (length_after_le cs)

/-- Whether a key can be written without quotes. -/
def isBare (key : List Char) : Bool :=
  !key.isEmpty && key.all isWordChar

end Word

/-- Reads an object key, after white space. -/
def Key.read : Reader String := fun cs =>
  match h : Text.trimStart cs with
  | [] => .error ⟨.noKey none, []⟩
  | c :: rest =>
    have shorter := Text.length_le_of_trimStart_eq_cons h
    if Quoted.isQuote c then (Quoted.text c rest).map (·.within shorter)
    else if hc : Word.isWordChar c = true then
      .ok ⟨String.ofList (Word.leading (c :: rest)), Word.after (c :: rest),
        Nat.lt_of_lt_of_le (Word.length_after_lt hc rest) shorter⟩
    else .error ⟨.noKey (some c), c :: rest⟩

end DocShell
