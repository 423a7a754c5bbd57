import NumberedBasic.Text.Range

/-!
# Blank characters and physical lines

Which characters are white space at the edges of a text, the trims that remove them, and the
division of a source text into its physical lines.
-/

set_option autoImplicit false

namespace NumberedBasic.Text

/-- The characters with Unicode's `White_Space` property, as ranges of code points. -/
def blankRanges : List (Nat × Nat) :=
  [(0x0009, 0x000D), (0x0020, 0x0020), (0x0085, 0x0085), (0x00A0, 0x00A0), (0x1680, 0x1680),
   (0x2000, 0x200A), (0x2028, 0x2029), (0x202F, 0x202F), (0x205F, 0x205F), (0x3000, 0x3000)]

/-- A blank is a character of one of the `blankRanges`. -/
def isBlank (c : Char) : Bool :=
  within blankRanges c

/-- Drops the characters at the end of the text that satisfy `p`. -/
def dropEndWhile (p : Char → Bool) (cs : List Char) : List Char :=
  (cs.reverse.dropWhile p).reverse

/-- The text without the blanks it starts with. -/
def trimStart (cs : List Char) : List Char :=
  cs.dropWhile isBlank

/-- The text without the blanks it ends with. -/
def trimEnd (cs : List Char) : List Char :=
  dropEndWhile isBlank cs

/-- The text without the blanks on either side. -/
def trim (cs : List Char) : List Char :=
  trimEnd (trimStart cs)

/-- A text entered at a terminal without the carriage returns and line feeds that end it. -/
def dropLineEnd (cs : List Char) : List Char :=
  dropEndWhile (fun c => c == '\r' || c == '\n') cs

/-- The physical lines of a text: each line feed ends one, together with a carriage return right
before it, and what follows the last line feed is a line only if it is not empty. -/
def lines : List Char → List (List Char)
  | [] => []
  | '\n' :: cs => [] :: lines cs
  | '\r' :: '\n' :: cs => [] :: lines cs
  | c :: cs =>
    match lines cs with
    | [] => [[c]]
    | line :: rest => (c :: line) :: rest

end NumberedBasic.Text
