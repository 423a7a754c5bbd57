/-!
# Decimal numbers

A decimal is a whole number of units of a power of ten. Reading one as a double rounds once, to
the nearest double, whatever the size of its digits and of its exponent.
-/

set_option autoImplicit false

namespace NumberedBasic

/-- The number `digits · 10 ^ exponent`. -/
structure Decimal where
  digits : Nat
  exponent : Int
  deriving DecidableEq, Repr

namespace Decimal

/-- The number written by a list of decimal digits, the most significant one first. -/
def value (ds : List Char) : Nat :=
  ds.foldl (fun n d => 10 * n + (d.toNat - '0'.toNat)) 0

/-- How many decimal digits a number has; zero has one. -/
def width (n : Nat) : Nat :=
  (Nat.toDigits 10 n).length

/-- The positive infinity of the doubles. -/
def infinity : Float :=
  Float.ofBits 0x7ff0000000000000

/-- The double nearest to a decimal. Beyond `10 ^ 310` every decimal is infinite and below
`10 ^ -330` every one is zero, so the powers of ten that are computed stay small. -/
def toFloat (d : Decimal) : Float :=
  let magnitude : Int := width d.digits + d.exponent
  if d.digits = 0 ∨ magnitude < -330 then 0.0
  else if magnitude > 310 then infinity
  else Float.ofScientific d.digits (d.exponent < 0) d.exponent.natAbs

end Decimal

end NumberedBasic
