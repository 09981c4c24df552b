import DocShell.Number.Decimal
import DocShell.Text.Basic

set_option autoImplicit false

/-! # Shortest decimal text

The decimal digits of a binary number are the fewest that read back to it, and of those the
nearest. For each count of digits, from one to seventeen, the two neighbours of the number on
that decimal grid are read back; the first grid with a hit decides. Should no grid have one,
the number's full decimal expansion is taken, so the digits read back in every case.

How the digits are set out (where positional notation ends, whether exponents carry a plus
sign, what stands for the values that are no finite number) is a matter of the text they
stand in, and given by a `FloatStyle`.
-/

namespace DocShell

/-- Which of two equally near decimals is taken. -/
inductive Tie where
  | up
  | toEven
deriving DecidableEq

/-- How floating point numbers are written. -/
structure FloatStyle where
  /-- The least exponent that is written positionally. -/
  positionalFrom : Int
  /-- Exponents from here on are written in scientific notation. -/
  scientificFrom : Int
  /-- Whether a positive exponent carries a plus sign. -/
  plusSign : Bool
  /-- Which of two equally near decimals is written. -/
  tie : Tie
  /-- What stands for bits that are not a number. -/
  nan : String
  /-- What stands for infinity. -/
  infinity : String
  /-- What stands for negative infinity. -/
  negativeInfinity : String

namespace Shortest

/-- A finite magnitude as a ratio of natural numbers. -/
def ratio (magnitude : Nat) : Nat × Nat :=
  (Binary64.significand magnitude * pow2 (Binary64.shift magnitude), pow2 1074)

/-- The exponent of the first significant digit of a positive ratio. -/
def leading (num den : Nat) : Int :=
  if den ≤ num then (Text.decimal (num / den)).length - 1
  else -((Text.decimal (den / num)).length : Int)

/-- All digits of a finite magnitude: with `k` binary places it has `k` decimal places. -/
def expansion (magnitude : Nat) : Decimal :=
  ⟨Binary64.significand magnitude * pow2 (Binary64.shift magnitude) * pow5 1074, -1074⟩

/-- The neighbour of the magnitude on the grid of step `10 ^ place` that reads back to it; of
two the nearer, and of two equally near the one that `tie` names. -/
def onGrid (tie : Tie) (magnitude : Nat) (place : Int) : Option Decimal :=
  let (num, den) := ratio magnitude
  let above := num * pow10 (-place).toNat
  let below := den * pow10 place.toNat
  let lower : Decimal := ⟨above / below, place⟩
  let upper : Decimal := ⟨above / below + 1, place⟩
  let twice := 2 * (above % below)
  let upperFirst := below < twice ||
    (twice == below && (tie == .up || lower.coefficient % 2 == 1))
  let candidates := if upperFirst then [upper, lower] else [lower, upper]
  candidates.find? fun d => d.magnitude == magnitude

/-- The fewest digits that read back to a finite positive magnitude. -/
def decimal (tie : Tie) (magnitude : Nat) : Decimal :=
  let (num, den) := ratio magnitude
  let places := (List.range 17).map fun (count : Nat) => leading num den - count
  (places.findSome? (onGrid tie magnitude)).getD (expansion magnitude)

end Shortest

namespace Decimal

/-- The digits of the coefficient, without the zeros at its end. -/
def significantDigits (d : Decimal) : List Char :=
  ((Text.decimal d.coefficient).reverse.dropWhile (· == '0')).reverse

/-- The number of digits before the decimal point; it is not positive for a number below `0.1`. -/
def point (d : Decimal) : Int :=
  (Text.decimal d.coefficient).length + d.exponent

/-- Digits with the decimal point among, before or after them, and a digit on both sides. -/
def positional (digits : List Char) (point : Int) : List Char :=
  if point ≤ 0 then "0.".toList ++ List.replicate (-point).toNat '0' ++ digits
  else if digits.length ≤ point.toNat then
    digits ++ List.replicate (point.toNat - digits.length) '0' ++ ".0".toList
  else digits.take point.toNat ++ '.' :: digits.drop point.toNat

/-- One digit, the others after a point if there are others, and the exponent. -/
def scientific (plusSign : Bool) (digits : List Char) (exponent : Int) : List Char :=
  let fraction := match digits.drop 1 with
    | [] => []
    | more => '.' :: more
  let sign := if exponent < 0 then ['-'] else if plusSign then ['+'] else []
  digits.take 1 ++ fraction ++ 'e' :: sign ++ Text.decimal exponent.natAbs

/-- The text of a positive decimal number. -/
def chars (style : FloatStyle) (d : Decimal) : List Char :=
  let exponent := d.point - 1
  if style.positionalFrom ≤ exponent ∧ exponent < style.scientificFrom then
    positional d.significantDigits d.point
  else scientific style.plusSign d.significantDigits exponent

end Decimal

/-- The text of a floating point number. Zero keeps its sign. -/
def Binary64.chars (style : FloatStyle) (x : Binary64) : List Char :=
  if x.isNaN then style.nan.toList
  else if !x.isFinite then
    (if x.negative then style.negativeInfinity else style.infinity).toList
  else
    let sign := if x.negative then ['-'] else []
    let digits :=
      if x.isZero then "0.0".toList else (Shortest.decimal style.tie x.magnitude).chars style
    sign ++ digits

end DocShell
