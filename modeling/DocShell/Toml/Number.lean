import DocShell.Number.Decimal
import DocShell.Toml.Lexical

set_option autoImplicit false

/-! # Numbers, dates and times of TOML

Digits may be set apart by single underscores. Integers have 64 bits and a sign, and may be
written with the base sixteen, eight or two. Dates are checked against the calendar.
-/

namespace DocShell.Toml

/-! ## Digits -/

/-- Digits, with single underscores between them; the underscores are left out. -/
def digitRun (isDigit : Char → Bool) : List Char → List Char × List Char
  | [] => ([], [])
  | c :: cs =>
    if isDigit c then
      let (more, rest) := digitRun isDigit cs
      (c :: more, rest)
    else if c = '_' ∧ cs.head?.any isDigit then digitRun isDigit cs
    else ([], c :: cs)

/-- At least one digit, and underscores only between digits. -/
def digits1 (isDigit : Char → Bool) : Reader (List Char)
  | [] => none
  | c :: cs => if isDigit c then some (digitRun isDigit (c :: cs)) else none

/-- An optional sign; true for a minus. -/
def sign : List Char → Bool × List Char
  | '-' :: cs => (true, cs)
  | '+' :: cs => (false, cs)
  | cs => (false, cs)

/-- The digits of a decimal integer, without leading zeros. -/
def wholeDigits : Reader (List Char)
  | '0' :: cs => some (['0'], cs)
  | cs => digits1 Char.isDigit cs

/-! ## Integers -/

/-- The digits of an integer with a base other than ten, after its two-letter mark. -/
def basedDigits (base : Nat) (cs : List Char) : Option (Int × List Char) := do
  let isDigit c := (Text.hexValue? c).any (· < base)
  let (digits, rest) ← digits1 isDigit cs
  let n : Int := digits.foldl (fun n d => base * n + (Text.hexValue? d).getD 0) 0
  return (n, rest)

/-- An integer of any size. -/
def unboundedInt : Reader Int
  | '0' :: 'x' :: cs => basedDigits 16 cs
  | '0' :: 'o' :: cs => basedDigits 8 cs
  | '0' :: 'b' :: cs => basedDigits 2 cs
  | cs => do
    let (negative, cs) := sign cs
    let (digits, rest) ← wholeDigits cs
    let n : Int := Text.decimalValue digits
    return (if negative then -n else n, rest)

/-- An integer of 64 bits. -/
def integer : Reader Int := fun cs =>
  match unboundedInt cs with
  | some (n, rest) => if isWord64 n then some (n, rest) else none
  | none => none

/-! ## Floating point numbers -/

/-- An optional fraction. -/
def fraction : List Char → List Char × List Char
  | '.' :: cs => (digits1 Char.isDigit cs).getD ([], '.' :: cs)
  | cs => ([], cs)

/-- An optional exponent. -/
def exponent : List Char → Option Int × List Char
  | c :: cs =>
    if c = 'e' ∨ c = 'E' then
      let (negative, ds) := sign cs
      match digits1 Char.isDigit ds with
      | some (digits, rest) =>
        let n : Int := Text.decimalValue digits
        (some (if negative then -n else n), rest)
      | none => (none, c :: cs)
    else (none, c :: cs)
  | [] => (none, [])

/-- The names of infinity and of what is not a number, after the sign. -/
def specialFloat (negative : Bool) : Reader Binary64
  | 'i' :: 'n' :: 'f' :: rest => some (.ofParts negative Binary64.infinity, rest)
  | 'n' :: 'a' :: 'n' :: rest => some (.ofParts negative (Binary64.infinity + pow2 51), rest)
  | _ => none

/-- A floating point number: it has a fraction or an exponent, or it is one of the special
ones. A positive number beyond the largest finite one is refused. -/
def float : Reader Binary64 := fun cs =>
  let (negative, cs) := sign cs
  match wholeDigits cs with
  | none => specialFloat negative cs
  | some (whole, cs) =>
    let (places, cs) := fraction cs
    let (power, cs) := exponent cs
    if places.isEmpty ∧ power.isNone then none
    else
      let d : Decimal := ⟨Text.decimalValue (whole ++ places), power.getD 0 - places.length⟩
      let x := d.toBinary64 negative
      if x.isFinite ∨ negative then some (x, cs) else none

/-! ## Dates and times -/

/-- Exactly so many decimal digits, as a number between two bounds. -/
def fixedDigits (count least most : Nat) : Reader Nat := fun cs =>
  let digits := cs.take count
  let n := Text.decimalValue digits
  if digits.length = count ∧ digits.all Char.isDigit ∧ least ≤ n ∧ n ≤ most then
    some (n, cs.drop count)
  else none

/-- One certain character. -/
def mark (c : Char) : Reader Unit
  | d :: cs => if d = c then some ((), cs) else none
  | [] => none

/-- Whether February has 29 days. -/
def isLeapYear (year : Nat) : Bool :=
  year % 4 == 0 && (year % 100 != 0 || year % 400 == 0)

/-- The number of days of a month. -/
def daysInMonth (year month : Nat) : Nat :=
  if month = 2 then if isLeapYear year then 29 else 28
  else if month = 4 ∨ month = 6 ∨ month = 9 ∨ month = 11 then 30
  else 31

/-- Reads a date. -/
def date : Reader Unit := fun cs => do
  let (year, cs) ← fixedDigits 4 0 9999 cs
  let (_, cs) ← mark '-' cs
  let (month, cs) ← fixedDigits 2 1 12 cs
  let (_, cs) ← mark '-' cs
  let (_, cs) ← fixedDigits 2 1 (daysInMonth year month) cs
  return ((), cs)

/-- An optional fraction of a second. -/
def secondFraction : List Char → List Char
  | '.' :: d :: cs => if d.isDigit then cs.dropWhile Char.isDigit else '.' :: d :: cs
  | cs => cs

/-- Reads a time of day. A minute may have a leap second. -/
def time : Reader Unit := fun cs => do
  let (_, cs) ← fixedDigits 2 0 23 cs
  let (_, cs) ← mark ':' cs
  let (_, cs) ← fixedDigits 2 0 59 cs
  let (_, cs) ← mark ':' cs
  let (_, cs) ← fixedDigits 2 0 60 cs
  return ((), secondFraction cs)

/-- The distance from universal time. -/
def zone : Reader Unit
  | c :: cs =>
    if c = 'Z' ∨ c = 'z' then some ((), cs)
    else if c = '+' ∨ c = '-' then do
      let (_, cs) ← fixedDigits 2 0 23 cs
      let (_, cs) ← mark ':' cs
      let (_, cs) ← fixedDigits 2 0 59 cs
      return ((), cs)
    else none
  | [] => none

/-- The time that follows a date, after a letter or a blank, with its zone. -/
def timeOfDate : Reader Unit
  | c :: cs =>
    if c = 'T' ∨ c = 't' ∨ c = ' ' then do
      let (_, cs) ← time cs
      return ((), ((zone cs).map Prod.snd).getD cs)
    else none
  | [] => none

/-- A date, a time, or both. -/
def dateTime : Reader Unit := fun cs =>
  match date cs with
  | some (_, rest) => some ((), ((timeOfDate rest).map Prod.snd).getD rest)
  | none => time cs

end DocShell.Toml
