import NumberedBasic.Decimal

/-!
# Numerals

The written form of a number: an optional sign, digits with at most one point among or beside
them, and an optional exponent. `Numeral.read?` accepts a text that is one numeral from end to
end; the words for infinity and for an undefined number are numerals too.
-/

set_option autoImplicit false

namespace NumberedBasic.Numeral

/-- Takes a sign off the front: whether it was a minus, and what follows. -/
def sign : List Char → Bool × List Char
  | '-' :: cs => (true, cs)
  | '+' :: cs => (false, cs)
  | cs => (false, cs)

/-- The power of ten a text such as `E-5` stands for; the empty text stands for zero. -/
def exponent? : List Char → Option Int
  | [] => some 0
  | e :: cs =>
    let (negative, ds) := sign cs
    if (e == 'e' || e == 'E') && !ds.isEmpty && ds.all Char.isDigit then
      some (if negative then -(Decimal.value ds : Int) else Decimal.value ds)
    else none

/-- The decimal a text without a sign stands for. -/
def decimal? (cs : List Char) : Option Decimal :=
  let whole := cs.takeWhile Char.isDigit
  let rest := cs.dropWhile Char.isDigit
  let (fraction, rest) :=
    match rest with
    | '.' :: after => (after.takeWhile Char.isDigit, after.dropWhile Char.isDigit)
    | _ => ([], rest)
  if whole.isEmpty && fraction.isEmpty then none
  else (exponent? rest).map fun power =>
    ⟨Decimal.value (whole ++ fraction), power - fraction.length⟩

/-- The value of a word such as `INF`, read without regard to case. -/
def word? (cs : List Char) : Option Float :=
  let word := String.ofList (cs.map Char.toLower)
  if word = "inf" ∨ word = "infinity" then some Decimal.infinity
  else if word = "nan" then some (0.0 / 0.0)
  else none

/-- The number a whole text stands for, rounded to the nearest double. -/
def read? (cs : List Char) : Option Float :=
  let (negative, body) := sign cs
  let size := (decimal? body).map Decimal.toFloat <|> word? body
  size.map fun x => if negative then -x else x

/-- The characters of numerals that are not words. -/
def isMark (c : Char) : Bool :=
  c.isDigit || c == '+' || c == '-' || c == '.' || c == 'e' || c == 'E'

/-- The number a text without words stands for. -/
def plain? (cs : List Char) : Option Float :=
  if cs.all isMark then read? cs else none

end NumberedBasic.Numeral
