set_option autoImplicit false

/-! # Powers of two, five and ten

The powers that conversions between binary and decimal numbers are made of.
-/

namespace DocShell

/-- The power of two with the given exponent. -/
def pow2 (n : Nat) : Nat := Nat.pow 2 n

/-- The power of five with the given exponent. -/
def pow5 (n : Nat) : Nat := Nat.pow 5 n

/-- The power of ten with the given exponent. -/
def pow10 (n : Nat) : Nat := Nat.pow 10 n

end DocShell
