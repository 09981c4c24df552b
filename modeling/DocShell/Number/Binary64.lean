import DocShell.Number.Power

set_option autoImplicit false

/-! # Binary floating point numbers

A number of the 64-bit binary format is kept as its bit pattern, and all arithmetic on it is
exact arithmetic on natural numbers. Below the sign bit a pattern counts the nonnegative
numbers of the format in increasing order, from zero through the subnormal and the normal
numbers up to infinity; that count is the `magnitude`.
-/

namespace DocShell

/-- A 64-bit binary floating point number, given by its bits. -/
structure Binary64 where
  bits : UInt64
deriving DecidableEq

namespace Binary64

/-- The weight of the sign bit. -/
def signWeight : Nat := pow2 63

/-- The number of magnitudes that share an exponent. -/
def binade : Nat := pow2 52

/-- The magnitude of infinity. Larger magnitudes are not numbers. -/
def infinity : Nat := 2047 * binade

/-- The number with the given sign and magnitude. -/
def ofParts (negative : Bool) (magnitude : Nat) : Binary64 :=
  ⟨(if negative then signWeight + magnitude else magnitude).toUInt64⟩

/-- Whether the sign bit is set. -/
def negative (x : Binary64) : Bool :=
  signWeight ≤ x.bits.toNat

/-- The bits below the sign. -/
def magnitude (x : Binary64) : Nat :=
  x.bits.toNat % signWeight

/-- Neither infinite nor not a number. -/
def isFinite (x : Binary64) : Bool :=
  x.magnitude < infinity

/-- Whether the bits stand for no number at all. -/
def isNaN (x : Binary64) : Bool :=
  infinity < x.magnitude

/-- Whether the number is a zero of either sign. -/
def isZero (x : Binary64) : Bool :=
  x.magnitude == 0

/-- Equality of numbers: the two zeros are equal, and what is not a number equals nothing. -/
def equal (x y : Binary64) : Bool :=
  !x.isNaN && (x == y || (x.isZero && y.isZero))

/-- A finite magnitude is `significand · 2 ^ (shift - 1074)`. -/
def shift (magnitude : Nat) : Nat :=
  magnitude / binade - 1

/-- A finite magnitude is `significand · 2 ^ (shift - 1074)`. -/
def significand (magnitude : Nat) : Nat :=
  if magnitude / binade = 0 then magnitude else magnitude % binade + binade

/-! ## Rounding -/

/-- The integer nearest to `num / den`, a half going to the even neighbour. -/
def roundDiv (num den : Nat) : Nat :=
  let quotient := num / den
  let twice := 2 * (num % den)
  if twice < den then quotient
  else if den < twice then quotient + 1
  else quotient + quotient % 2

/-- The magnitude nearest to `num / den`, a half going to the even neighbour. The ratio is
counted in steps of the least positive number, and numbers of 53 bits and more are cut down
to 53 bits first; what would lie beyond the largest finite number is infinite. -/
def ofRatio (num den : Nat) : Nat :=
  let steps := num * pow2 1074
  let shift := (steps / den).log2 - 52
  min (shift * binade + roundDiv steps (den * pow2 shift)) infinity

end Binary64

end DocShell
