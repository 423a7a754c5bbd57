import NumberedBasic.Decimal.Binary
import NumberedBasic.Decimal.Numeral
import NumberedBasic.Decimal.Rounding
import NumberedBasic.Text.Blank

/-!
# Numbers as the language shows and reads them

Numbers are doubles. They are written with at most fifteen significant digits, and read back from
replies, data items and strings.
-/

set_option autoImplicit false

namespace NumberedBasic.Number

/-- How a decimal with leading digit at `10 ^ leading` is written without an exponent. -/
def positional (digits : List Char) (leading : Int) : List Char :=
  if leading < 0 then
    '0' :: '.' :: (List.replicate (leading.natAbs - 1) '0' ++ digits)
  else
    let whole := leading.toNat + 1
    if digits.length ≤ whole then digits ++ List.replicate (whole - digits.length) '0'
    else digits.take whole ++ '.' :: digits.drop whole

/-- How a decimal with leading digit at `10 ^ leading` is written with one digit before the point
and an exponent after `mark`. -/
def scientific (mark : Char) (digits : List Char) (leading : Int) : List Char :=
  let exponent := (toString leading).toList
  match digits with
  | first :: second :: rest => first :: '.' :: second :: rest ++ mark :: exponent
  | _ => digits ++ mark :: exponent

/-- The digits of a decimal without the zeros they end with, and the exponent of the first one. -/
def spread (d : Decimal) : List Char × Int :=
  let digits := Nat.toDigits 10 d.digits
  (Text.dropEndWhile (· == '0') digits, d.exponent + digits.length - 1)

/-- The fewest digits that read back as the positive double `x`, which is `num / den`, and the
exponent of the first one. -/
def shortestDigits (x : Float) (num den : Nat) : List Char × Int :=
  spread (Decimal.shortest x num den)

/-- A text with a minus sign before it if there is to be one. -/
def signed (negative : Bool) (text : List Char) : List Char :=
  if negative then '-' :: text else text

/-- A number by the fewest digits that read back as it, laid out as `layout` says. -/
def shortestText (layout : List Char → Int → List Char) (x : Float) : String :=
  match Binary.ofFloat x with
  | .undefined => "NaN"
  | .infinite negative => String.ofList (signed negative "inf".toList)
  | .finite negative significand exponent =>
    let (num, den) := Binary.ratio significand exponent
    let (digits, leading) := shortestDigits x.abs num den
    String.ofList (signed negative (layout digits leading))

/-- A positive fraction rounded to fifteen significant digits, with an exponent. -/
def fifteenDigits (num den : Nat) : List Char :=
  let d := Decimal.significant 15 num den
  let digits := Nat.toDigits 10 d.digits
  scientific 'e' (digits.take 15) (d.exponent + digits.length - 1)

/-- The number that the first fifteen significant digits of a number stand for. -/
def rounded (x : Float) : Float :=
  match Binary.ofFloat x with
  | .finite negative significand exponent =>
    let (num, den) := Binary.ratio significand exponent
    (Numeral.read? (signed negative (fifteenDigits num den))).getD x
  | _ => x

/-- The integer part of a number, as a number. A negative number keeps its sign. -/
def truncated (x : Float) : Float :=
  match Binary.ofFloat x with
  | .finite negative significand exponent =>
    let whole := Float.ofNat (Binary.wholePart significand exponent)
    if negative then -whole else whole
  | _ => x

/-- What is left of a number without its integer part. -/
def fraction (x : Float) : Float :=
  x - truncated x

/-- The integer part of a number, or the bound that is next to it where it is outside of two bounds.
An undefined number gives zero. -/
def saturated (low high : Int) (x : Float) : Int :=
  match Binary.ofFloat x with
  | .undefined => 0
  | .infinite negative => if negative then low else high
  | .finite negative significand exponent =>
    let whole : Int := Binary.wholePart significand exponent
    max low (min high (if negative then -whole else whole))

/-- A number as a word of 64 bits with a sign. -/
def signedWord (x : Float) : Int :=
  saturated (-9223372036854775808) 9223372036854775807 x

/-- A number as a word of 64 bits without a sign. -/
def unsignedWord (x : Float) : Nat :=
  (saturated 0 18446744073709551615 x).toNat

/-- The text of a number. It shows fifteen significant digits, and from `10 ^ 15` on and below
`10 ^ -5` an exponent. Whole numbers have no point, and both zeros are written alike. -/
def format (x : Float) : String :=
  if x == 0.0 then "0"
  else if !x.isFinite then (shortestText positional x).toUpper
  else
    let y := rounded x
    if y.abs ≥ 1e15 ∨ y.abs < 1e-5 then shortestText (scientific 'E') y
    else if fraction y == 0.0 then toString (signedWord y)
    else shortestText positional y

/-- The number a whole reply or data item stands for. A blank one is zero; blanks on either side do
not matter. -/
def ofField? (cs : List Char) : Option Float :=
  let body := Text.trim cs
  if body.isEmpty then some 0.0 else Numeral.plain? body

/-- The number at the front of a text: that of the last of its prefixes, after blanks, that is a
numeral without words; zero if there is none. -/
def ofFront (cs : List Char) : Float :=
  let text := Text.trimStart cs
  (List.range (text.length + 1)).foldl
    (fun best length => (Numeral.plain? (text.take length)).getD best) 0.0

end NumberedBasic.Number
