import DocShell.Number.Binary64

set_option autoImplicit false

/-! # Decimal numbers

Nonnegative decimal numbers `coefficient · 10 ^ exponent`, and the binary number nearest to
one. Exponents are unbounded, so the cases far outside the binary range are settled before
any power of ten is formed.
-/

namespace DocShell

/-- The number `coefficient · 10 ^ exponent`. -/
structure Decimal where
  coefficient : Nat
  exponent : Int
deriving DecidableEq

namespace Decimal

/-- The magnitude nearest to the number, whatever its size. -/
def exactMagnitude (d : Decimal) : Nat :=
  Binary64.ofRatio (d.coefficient * pow10 d.exponent.toNat) (pow10 (-d.exponent).toNat)

/-- The magnitude nearest to the number. A number of `10 ^ 310` and more is infinite, one below
`10 ^ (-330)` is zero; a coefficient of `b` bits is below `10 ^ b`. -/
def magnitude (d : Decimal) : Nat :=
  if d.coefficient = 0 then 0
  else if 310 < d.exponent then Binary64.infinity
  else if d.exponent + (d.coefficient.log2 + 1) < -330 then 0
  else d.exactMagnitude

/-- The binary number nearest to the decimal one, with the given sign. -/
def toBinary64 (negative : Bool) (d : Decimal) : Binary64 :=
  .ofParts negative d.magnitude

end Decimal

/-- Whether an integer fits into 64 bits with its sign. -/
def isWord64 (i : Int) : Bool :=
  -0x8000000000000000 ≤ i && i < 0x8000000000000000

/-- The binary number nearest to an integer. -/
def Binary64.ofInt (i : Int) : Binary64 :=
  (Decimal.mk i.natAbs 0).toBinary64 (i < 0)

end DocShell
