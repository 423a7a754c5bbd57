import NumberedBasic.Statement.Read
import NumberedBasic.Token.Scan

/-!
# Lines

A line as it was entered: its number, if it has one, and its tokens. It can be listed, which brings
it into a standard form, and read into statements.
-/

set_option autoImplicit false

namespace NumberedBasic

/-- A line of a program. -/
structure Line where
  number : Option LineNumber
  tokens : List Token
  deriving DecidableEq, Repr

namespace Line

/-- The line a text stands for, without the line ends that close it. -/
def ofText (text : String) : Line :=
  let (number, tokens) := Token.scanLine (Text.dropLineEnd text.toList)
  ⟨number, tokens⟩

/-- Whether nothing but the number was entered. -/
def isEmpty (line : Line) : Bool :=
  line.tokens.all (· == .endOfLine)

/-- The line as it is listed. -/
def text (line : Line) : String :=
  let body := String.join (line.tokens.map Token.text)
  match line.number with
  | some n => toString n ++ " " ++ body
  | none => body

/-- The first of some tokens that is none of the language; `column` is where the one before them
stood. -/
def unknownAfter? (column : Span) : List Token → Option (String × Span)
  | [] => none
  | t :: ts =>
    let column : Span := ⟨column.stop, column.stop + t.text.length⟩
    match t with
    | .unknown s => some (s, column)
    | _ => unknownAfter? column ts

/-- The first piece of a line that is no token of the language. -/
def firstUnknown? (line : Line) : Option (String × Span) :=
  unknownAfter? ⟨0, 0⟩ line.tokens

/-- The statements of a line. Unknown characters are refused before anything is read. -/
def statements (line : Line) : Except Fault (List Statement) :=
  match line.firstUnknown? with
  | some (s, column) =>
    .error { code := .illegalCharacter, detail := s, line := line.number, column }
  | none => Statement.parse line.number line.tokens

end Line

end NumberedBasic
