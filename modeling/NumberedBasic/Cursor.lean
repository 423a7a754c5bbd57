import NumberedBasic.Token

/-!
# A cursor over the tokens of a line

The tokens of a line are read from left to right. A cursor takes one after the other, or looks at
the next one and leaves it for later, and passes over blanks. It keeps the columns, in the listed
text, of the token that it has come to last, whether that was taken or only looked at. What is read
is given these columns, and so is the fault of a line that is refused.
-/

set_option autoImplicit false

namespace NumberedBasic

/-- The tokens that a cursor has not come to, the token that it has come to and not taken, if there
is one, and the columns of the token that it has come to last. -/
structure Cursor where
  stream : List Token
  peeked : Option Token
  column : Span
  deriving DecidableEq, Repr

namespace Cursor

/-- The cursor at the start of a line. -/
def start (tokens : List Token) : Cursor :=
  ⟨tokens, none, ⟨0, 0⟩⟩

/-- Goes on to the next token of `stream` that is not blank; `column` is where the last one stood.
At the end of the line the columns are empty. -/
def advance (column : Span) (stream : List Token) : Option Token × Cursor :=
  match stream with
  | [] => (none, ⟨[], none, ⟨column.stop, column.stop⟩⟩)
  | t :: ts =>
    let column : Span := ⟨column.stop, column.stop + t.text.length⟩
    match t with
    | .blank _ => advance column ts
    | _ => (some t, ⟨ts, none, column⟩)

/-- Takes a token: the one that was looked at, or else the next one. -/
def next (cursor : Cursor) : Option Token × Cursor :=
  match cursor.peeked with
  | some t => (some t, { cursor with peeked := none })
  | none => advance cursor.column cursor.stream

/-- Looks at a token without taking it. -/
def peek (cursor : Cursor) : Option Token × Cursor :=
  match cursor.peeked with
  | some t => (some t, cursor)
  | none =>
    let (t, cursor) := cursor.next
    (t, { cursor with peeked := t })

/-- The number of tokens that can still be taken. -/
def remaining (cursor : Cursor) : Nat :=
  let ahead := (cursor.stream.filter Token.isSolid).length
  if cursor.peeked.isSome then ahead + 1 else ahead

end Cursor

/-- Something that is read. It yields a value or a fault that names no place, and moves the
cursor. -/
def Reader (α : Type) : Type :=
  Cursor → Except Fault α × Cursor

namespace Reader

variable {α β : Type}

instance : Monad Reader where
  pure a := fun cursor => (.ok a, cursor)
  bind x f := fun cursor =>
    match x cursor with
    | (.ok a, cursor) => f a cursor
    | (.error fault, cursor) => (.error fault, cursor)

/-- Yields a result without reading anything. -/
def ofExcept (result : Except Fault α) : Reader α :=
  fun cursor => (result, cursor)

/-- Refuses to read on. -/
def refuse (detail : String) : Reader α :=
  ofExcept (.error (Fault.badSyntax detail))

/-- The refusal of a reader that has used up the depth it was given. -/
def exhausted : Reader α :=
  ofExcept (.error { code := .internalError, detail := "NESTING" })

/-- Takes a token. -/
def next : Reader (Option Token) :=
  fun cursor =>
    let (t, cursor) := cursor.next
    (.ok t, cursor)

/-- Looks at a token. -/
def peek : Reader (Option Token) :=
  fun cursor =>
    let (t, cursor) := cursor.peek
    (.ok t, cursor)

/-- The columns of the token that the cursor has come to last. -/
def column : Reader Span :=
  fun cursor => (.ok cursor.column, cursor)

/-- The number of tokens that can still be taken. -/
def remaining : Reader Nat :=
  fun cursor => (.ok cursor.remaining, cursor)

/-- What a token that is missing is called. -/
def expectation : Token → String
  | .unknown _ | .blank _ | .remark _ | .datum _ | .endOfLine => "UNEXPECTED TOKEN"
  | .number _ | .string _ => "EXPECTED LITERAL"
  | .word w => "EXPECTED " ++ w.text
  | .operator op => "EXPECTED " ++ op.text
  | .name _ => "EXPECTED IDENTIFIER"
  | .leftParen => "EXPECTED LEFT PARENTHESIS"
  | .rightParen => "EXPECTED RIGHT PARENTHESIS"
  | .comma => "EXPECTED COMMA"
  | .colon => "EXPECTED COLON"
  | .semicolon => "EXPECTED SEMICOLON"

/-- Takes a token that has to be the given one. -/
def expect (token : Token) : Reader Unit := do
  if (← next) = some token then return () else refuse (expectation token)

/-- Whether a statement may end here. -/
def atEnd : Reader Bool := do
  match ← peek with
  | none | some .endOfLine | some .colon | some (.word .ELSE) => return true
  | _ => return false

/-- Takes a name. -/
def name : Reader (Span × Ident) := do
  match ← next with
  | some (.name i) => return (← column, i)
  | _ => refuse "EXPECTED IDENTIFIER"

/-- Takes the name of a function whose `FN` has been taken: `FN` joined with the name that follows,
if one does. -/
def functionName : Reader Ident := do
  match ← peek with
  | some (.name i) => do
    let _ ← next
    return .ofName ("FN" ++ i.name)
  | _ => return .ofName "FN"

/-- Takes a line number. -/
def lineNumber : Reader LineNumber := do
  match ← next with
  | some t => ofExcept t.lineNumber
  | none => refuse "EXPECTED LINE NUMBER"

/-- Reads items separated by commas, at most `count` of them. -/
def separated (item : Reader α) : Nat → Reader (List α)
  | 0 => exhausted
  | count + 1 => do
    let first ← item
    match ← peek with
    | some .comma => do
      let _ ← next
      return first :: (← separated item count)
    | _ => return [first]

/-- Reads items separated by commas. No more of them can follow than there are tokens. -/
def list (item : Reader α) : Reader (List α) := do
  separated item ((← remaining) + 1)

end Reader

end NumberedBasic
