import DocShell.Literal.Reader
import DocShell.Value.Basic

set_option autoImplicit false

/-! # Numerals

A numeral is a decimal integer, without leading zeros, that may have a sign, a fraction and an
exponent. Without fraction and exponent it denotes an integer, if that has 64 bits; in all
other cases it denotes the nearest floating point number.
-/

namespace DocShell

/-- The parts of a numeral, with the digits as written. -/
structure Numeral where
  negative : Bool
  whole : List Char
  /-- The digits after the point; none without a point. -/
  fraction : List Char
  /-- The exponent, if one is written. -/
  exponent : Option Int
deriving DecidableEq

namespace Numeral

/-- A run of decimal digits, and what follows it. -/
def digits (cs : List Char) : List Char × List Char :=
  (cs.takeWhile Char.isDigit, cs.dropWhile Char.isDigit)

/-- An optional minus sign. -/
def sign : List Char → Bool × List Char
  | '-' :: cs => (true, cs)
  | cs => (false, cs)

/-- An optional fraction: a point and at least one digit. -/
def fractionPart : List Char → Option (List Char × List Char)
  | '.' :: cs =>
    match digits cs with
    | ([], _) => none
    | (ds, rest) => some (ds, rest)
  | cs => some ([], cs)

/-- The sign of an exponent, which may also be a plus sign. -/
def exponentSign : List Char → Bool × List Char
  | '+' :: cs => (false, cs)
  | cs => sign cs

/-- The sign and the digits of an exponent, of which there is at least one. -/
def exponentDigits (cs : List Char) : Option (Option Int × List Char) :=
  let (negative, cs) := exponentSign cs
  match digits cs with
  | ([], _) => none
  | (ds, rest) =>
    let n : Int := Text.decimalValue ds
    some (some (if negative then -n else n), rest)

/-- An optional exponent: the letter, an optional sign and at least one digit. -/
def exponentPart : List Char → Option (Option Int × List Char)
  | c :: cs => if c = 'e' ∨ c = 'E' then exponentDigits cs else some (none, c :: cs)
  | [] => some (none, [])

/-- Reads a numeral from the beginning of the text. -/
def scan (cs : List Char) : Option (Numeral × List Char) := do
  let (negative, cs) := sign cs
  let (whole, cs) := digits cs
  if whole.isEmpty ∨ (whole.head? = some '0' ∧ 1 < whole.length) then none
  else
    let (fraction, cs) ← fractionPart cs
    let (exponent, cs) ← exponentPart cs
    return (⟨negative, whole, fraction, exponent⟩, cs)

/-! ## Reading ends before the text it began with -/

theorem length_digits (cs : List Char) :
    (digits cs).1.length + (digits cs).2.length = cs.length := by
  rw [← List.length_append]
  exact congrArg List.length List.takeWhile_append_dropWhile

theorem length_sign_le (cs : List Char) : (sign cs).2.length ≤ cs.length := by
  unfold sign
  split <;> simp

theorem length_fractionPart_le {cs ds rest : List Char}
    (h : fractionPart cs = some (ds, rest)) : rest.length ≤ cs.length := by
  unfold fractionPart at h
  split at h
  · rename_i cs
    have := length_digits cs
    split at h <;> simp_all
    omega
  · simp_all

theorem length_exponentSign_le (cs : List Char) : (exponentSign cs).2.length ≤ cs.length := by
  unfold exponentSign
  split
  · simp
  · exact length_sign_le _

theorem length_exponentDigits_le {cs rest : List Char} {e : Option Int}
    (h : exponentDigits cs = some (e, rest)) : rest.length ≤ cs.length := by
  have hsign := length_exponentSign_le cs
  have hdigits := length_digits (exponentSign cs).2
  simp only [exponentDigits] at h
  split at h
  · contradiction
  · rename_i hd
    rw [hd] at hdigits
    simp only [Option.some.injEq, Prod.mk.injEq] at h hdigits
    obtain ⟨-, rfl⟩ := h
    omega

theorem length_exponentPart_le {cs rest : List Char} {e : Option Int}
    (h : exponentPart cs = some (e, rest)) : rest.length ≤ cs.length := by
  unfold exponentPart at h
  split at h
  · split at h
    · exact Nat.le_succ_of_le (length_exponentDigits_le h)
    · simp_all
  · simp_all

theorem length_scan_lt {cs rest : List Char} {n : Numeral}
    (h : scan cs = some (n, rest)) : rest.length < cs.length := by
  have hsign := length_sign_le cs
  have hdigits := length_digits (sign cs).2
  simp only [scan] at h
  split at h
  · contradiction
  · rename_i hwhole
    simp only [bind, Option.bind_eq_some_iff, pure, Option.some.injEq, Prod.mk.injEq] at h
    obtain ⟨⟨f, cs₁⟩, hf, ⟨e, cs₂⟩, he, -, rfl⟩ := h
    have := length_fractionPart_le hf
    have := length_exponentPart_le he
    have : (digits (sign cs).2).1.length ≠ 0 := by
      intro h0
      exact hwhole (Or.inl (by simpa using h0))
    simp only at *
    omega

/-! ## What a numeral denotes -/

/-- The number without its sign. -/
def toDecimal (n : Numeral) : Decimal :=
  ⟨Text.decimalValue (n.whole ++ n.fraction), n.exponent.getD 0 - n.fraction.length⟩

/-- The integer that a numeral without fraction and exponent denotes. -/
def toInt? (n : Numeral) : Option Int :=
  if n.fraction.isEmpty ∧ n.exponent.isNone then
    let m : Int := Text.decimalValue n.whole
    some (if n.negative then -m else m)
  else none

/-- The nearest floating point number, if it is finite. -/
def toFloat? (n : Numeral) : Option Value :=
  let x := n.toDecimal.toBinary64 n.negative
  if x.isFinite then some (.float x) else none

/-- The value of a numeral: an integer if it can be, a floating point number otherwise. -/
def toValue? (n : Numeral) : Option Value :=
  match n.toInt? with
  | some i => if isWord64 i then some (.int (.ofInt i)) else n.toFloat?
  | none => n.toFloat?

/-- Reads a number. -/
def read : Reader Value := fun cs =>
  match h : scan cs with
  | none => .error ⟨.badNumber, cs⟩
  | some (n, rest) =>
    match n.toValue? with
    | some v => .ok ⟨v, rest, length_scan_lt h⟩
    | none => .error ⟨.numberOutOfRange (cs.take (cs.length - rest.length)), cs⟩

end Numeral

end DocShell
