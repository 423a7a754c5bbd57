import NumberedBasic.Decimal
import NumberedBasic.Decimal.Binary

/-!
# Rounding to decimal digits

Two ways of giving a positive double in decimal: rounded to a fixed number of significant digits,
with exact ties to the even digit, and with the fewest digits that read back as the same double.
All arithmetic is on exact fractions.
-/

set_option autoImplicit false

namespace NumberedBasic.Decimal

/-- The fraction `num / den` divided by `10 ^ power`. -/
def scaleDown (num den : Nat) (power : Int) : Nat × Nat :=
  if power < 0 then (num * Nat.pow 10 power.natAbs, den)
  else (num, den * Nat.pow 10 power.natAbs)

/-- The exponent of the leading digit of a positive fraction: the `e` with
`10 ^ e ≤ num / den < 10 ^ (e + 1)`. -/
def leadingExponent (num den : Nat) : Int :=
  let guess : Int := width num - width den
  let (n, d) := scaleDown num den guess
  if d ≤ n then guess else guess - 1

/-- The integer nearest to `num / den`; of two that are equally near, the even one. -/
def roundHalfEven (num den : Nat) : Nat :=
  let q := num / den
  let twice := 2 * (num % den)
  if twice < den ∨ (twice = den ∧ q % 2 = 0) then q else q + 1

/-- A positive fraction rounded to `places` significant digits. -/
def significant (places : Nat) (num den : Nat) : Decimal :=
  let unit := leadingExponent num den - (places - 1 : Nat)
  let (n, d) := scaleDown num den unit
  ⟨roundHalfEven n d, unit⟩

/-- Of the two decimals with `places` digits on either side of a positive fraction, the one that
reads back as `x`; of two that do, the nearer, and the larger one if they are equally near. -/
def readsBack? (x : Float) (num den places : Nat) : Option Decimal :=
  let unit := leadingExponent num den - (places - 1 : Nat)
  let (n, d) := scaleDown num den unit
  let lower : Decimal := ⟨n / d, unit⟩
  let upper : Decimal := ⟨n / d + 1, unit⟩
  let lowerReads := lower.toFloat == x
  let upperReads := upper.toFloat == x
  if lowerReads && (!upperReads || 2 * (n % d) < d) then some lower
  else if upperReads then some upper
  else none

/-- The decimal with the fewest digits that reads back as the positive double `x`, which is
`num / den`. Seventeen digits always suffice. -/
def shortest (x : Float) (num den : Nat) : Decimal :=
  ((List.range' 1 17).findSome? (readsBack? x num den)).getD (significant 17 num den)

end NumberedBasic.Decimal
