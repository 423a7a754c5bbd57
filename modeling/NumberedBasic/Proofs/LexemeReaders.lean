import NumberedBasic.Line

/-!
# Reading tokens in their places

A cursor finds out where a token stands when it comes to it. For proofs it is more convenient to
have the columns beside the tokens from the start: a `Lexeme` is a token with its columns, and
`Lexeme.place` lays out a line as lexemes, without the blanks. The readers here take lexemes off the
front of a list and return what is left. A refusal names the lexeme where reading stopped, or the
end of the line.

They say what a cursor reads, one reader here for each one there, with the columns and the places of
all faults: this is `Statement.parse_eq`.
-/

set_option autoImplicit false

namespace NumberedBasic

/-! ## Results -/

/-- A computation that succeeds has a first part that does. -/
theorem exists_of_bind_eq_ok {ε α β : Type} {x : Except ε α} {f : α → Except ε β} {b : β}
    (h : x >>= f = .ok b) : ∃ a, x = .ok a ∧ f a = .ok b := by
  cases x with
  | error e => cases h
  | ok a => exact ⟨a, rfl, h⟩

/-- After a first part that succeeds, a computation goes on with its value. -/
theorem bind_of_eq_ok {ε α β : Type} {x : Except ε α} {f : α → Except ε β} {a : α} (h : x = .ok a) :
    x >>= f = f a := by
  rw [h]
  rfl

/-! ## Lexemes -/

/-- A token and its columns. -/
structure Lexeme where
  token : Token
  column : Span
  deriving DecidableEq, Repr

namespace Lexeme

/-- The tokens that are not blank, with their columns, when the first token starts at `start`. -/
def place (start : Nat) : List Token → List Lexeme
  | [] => []
  | t :: ts =>
    let stop := start + t.text.length
    match t with
    | .blank _ => place stop ts
    | _ => ⟨t, ⟨start, stop⟩⟩ :: place stop ts

/-- The piece of text that a lexeme holds and its columns, if it is no token of the language. -/
def unknown? (t : Lexeme) : Option (String × Span) :=
  match t.token with
  | .unknown s => some (s, t.column)
  | _ => none

/-- The number of characters of the listed tokens. -/
def width (ts : List Token) : Nat :=
  ts.foldr (fun t total => t.text.length + total) 0

end Lexeme

/-- Why a list of lexemes cannot be read, and where: at a token, or at the end of the line. The
fault is as it was raised, without a place. -/
structure Refusal where
  raised : Fault
  column : Option Span
  deriving DecidableEq, Repr

namespace Refusal

/-- The fault of a line that is refused, given its number and its width. -/
def fault (refusal : Refusal) (line : Option LineNumber) (width : Nat) : Fault :=
  (refusal.raised.inColumn (refusal.column.getD ⟨width, width⟩)).inLine line

end Refusal

/-- What was read, and the lexemes that are left. -/
abbrev WithRest (α : Type) := α × List Lexeme

namespace Lexeme

/-- Refuses to read on at the front of `ts`. -/
def refuse {α : Type} (ts : List Lexeme) (detail : String) : Except Refusal α :=
  .error ⟨Fault.badSyntax detail, ts.head?.map Lexeme.column⟩

/-- The refusal of a reader that has used up the depth it was given. -/
def exhausted {α : Type} (ts : List Lexeme) : Except Refusal α :=
  .error ⟨{ code := .internalError, detail := "NESTING" }, ts.head?.map Lexeme.column⟩

/-- Takes one given token off the front; `detail` says what was expected if it is not there. -/
def expect (token : Token) (detail : String) (ts : List Lexeme) : Except Refusal (List Lexeme) :=
  match ts with
  | t :: rest => if t.token = token then .ok rest else refuse ts detail
  | [] => refuse ts detail

/-- Takes a line number off the front. -/
def lineNumber (ts : List Lexeme) : Except Refusal (WithRest LineNumber) :=
  match ts with
  | [] => refuse ts "EXPECTED LINE NUMBER"
  | t :: rest =>
    match t.token.lineNumber with
    | .ok n => .ok (n, rest)
    | .error fault => .error ⟨fault, some t.column⟩

/-- Takes a name off the front. -/
def name (ts : List Lexeme) : Except Refusal (WithRest (Span × Ident)) :=
  match ts with
  | ⟨.name i, column⟩ :: rest => .ok ((column, i), rest)
  | _ => refuse ts "EXPECTED IDENTIFIER"

/-- The name of a function whose `FN` has been read: `FN` joined with the name that follows, if one
does. -/
def functionName : List Lexeme → Ident × List Lexeme
  | ⟨.name i, _⟩ :: rest => (.ofName ("FN" ++ i.name), rest)
  | ts => (.ofName "FN", ts)

/-- Whether a statement may end at the front of `ts`. -/
def atEnd : List Lexeme → Bool
  | [] => true
  | ⟨.endOfLine, _⟩ :: _ | ⟨.colon, _⟩ :: _ | ⟨.word .ELSE, _⟩ :: _ => true
  | _ => false

end Lexeme

open Lexeme (refuse exhausted expect functionName)

/-! ## Expressions -/

namespace Expr

mutual

/-- Reads an operand and the operators after it that bind tighter than `level`. -/
def expression : Nat → Nat → List Lexeme → Except Refusal (WithRest Expr)
  | 0, _, ts => exhausted ts
  | depth + 1, level, ts => do
    let (left, rest) ← operand depth ts
    operators depth level left rest

/-- Reads an operand: an expression in parentheses, a name, a function call, a literal, or an
operand after a sign or `NOT`. -/
def operand : Nat → List Lexeme → Except Refusal (WithRest Expr)
  | 0, ts => exhausted ts
  | depth + 1, ts =>
    match ts with
    | ⟨.leftParen, _⟩ :: rest => do
      let (inner, rest) ← expression depth 0 rest
      let rest ← expect .rightParen "EXPECTED RIGHT PARENTHESIS" rest
      pure (inner, rest)
    | ⟨.name i, column⟩ :: ⟨.leftParen, _⟩ :: rest => do
      let (arguments, rest) ← arguments depth rest
      pure (.call column i arguments, rest)
    | ⟨.name i, column⟩ :: rest => pure (.scalar column i, rest)
    | ⟨.word .FN, column⟩ :: rest =>
      let (i, rest) := functionName rest
      match rest with
      | ⟨.leftParen, _⟩ :: rest => do
        let (arguments, rest) ← arguments depth rest
        pure (.user column i arguments, rest)
      | _ => pure (.user column i [], rest)
    | ⟨.number s, column⟩ :: rest =>
      match Numeral.read? s.toList with
      | some x => pure (.number column x, rest)
      | none => refuse ts ("INVALID NUMBER " ++ s)
    | ⟨.string s, column⟩ :: rest => pure (.string column s, rest)
    | ⟨.operator (.binary .subtract), column⟩ :: rest => do
      let (inner, rest) ← expression depth unaryLevel rest
      pure (.negate column inner, rest)
    | ⟨.operator (.binary .add), _⟩ :: rest => expression depth unaryLevel rest
    | ⟨.operator .not, column⟩ :: rest => do
      let (inner, rest) ← expression depth unaryLevel rest
      pure (.not column inner, rest)
    | _ => refuse ts "EXPECTED EXPRESSION"

/-- Extends `left` by the operators that follow and bind tighter than `level`. -/
def operators : Nat → Nat → Expr → List Lexeme → Except Refusal (WithRest Expr)
  | 0, _, _, ts => exhausted ts
  | depth + 1, level, left, ts =>
    match ts with
    | ⟨.operator (.binary op), column⟩ :: rest =>
      if op.level ≤ level then pure (left, ts)
      else do
        let (right, rest) ← expression depth op.level rest
        operators depth level (.binary column op left right) rest
    | _ => pure (left, ts)

/-- Reads arguments separated by commas, up to and including the closing parenthesis. -/
def arguments : Nat → List Lexeme → Except Refusal (WithRest (List Expr))
  | 0, ts => exhausted ts
  | depth + 1, ts => do
    let (first, rest) ← expression depth 0 ts
    match rest with
    | ⟨.rightParen, _⟩ :: rest => pure ([first], rest)
    | ⟨.comma, _⟩ :: rest => do
      let (others, rest) ← arguments depth rest
      pure (first :: others, rest)
    | _ => refuse rest "EXPECTED END OR SEPARATOR"

end

/-- A depth that suffices for reading from `ts`. -/
def depthFor (ts : List Lexeme) : Nat :=
  3 * ts.length + 3

/-- Reads an expression. -/
def read (ts : List Lexeme) : Except Refusal (WithRest Expr) :=
  expression (depthFor ts) 0 ts

/-- Reads arguments after their opening parenthesis. -/
def readArguments (ts : List Lexeme) : Except Refusal (WithRest (List Expr)) :=
  arguments (depthFor ts) ts

end Expr

/-! ## Statements -/

namespace Target

/-- Reads a name that may be assigned to. The names of the built-in functions may not. -/
def readName (ts : List Lexeme) : Except Refusal (WithRest (Span × Ident)) := do
  let ((column, i), rest) ← Lexeme.name ts
  if Builtin.isReserved i.name then refuse ts "RESERVED FOR BUILT-IN"
  else pure ((column, i), rest)

/-- Reads a variable or an array element. -/
def read (ts : List Lexeme) : Except Refusal (WithRest Target) := do
  let ((column, i), rest) ← readName ts
  match rest with
  | ⟨.leftParen, _⟩ :: rest => do
    let (subscripts, rest) ← Expr.readArguments rest
    pure (.element ⟨column, i, subscripts⟩, rest)
  | _ => pure (.scalar column i, rest)

/-- Reads targets separated by commas, at most `count` of them. -/
def readList : Nat → List Lexeme → Except Refusal (WithRest (List Target))
  | 0, ts => exhausted ts
  | count + 1, ts => do
    let (first, rest) ← read ts
    match rest with
    | ⟨.comma, _⟩ :: rest => do
      let (others, rest) ← readList count rest
      pure (first :: others, rest)
    | _ => pure ([first], rest)

end Target

namespace Command

/-- Reads line numbers separated by commas. -/
def readLines : List Lexeme → Except Refusal (WithRest (List LineNumber))
  | t :: ⟨.comma, _⟩ :: rest => do
    let (first, _) ← Lexeme.lineNumber [t]
    let (others, rest) ← readLines rest
    pure (first :: others, rest)
  | ts => do
    let (line, rest) ← Lexeme.lineNumber ts
    pure ([line], rest)

/-- The item an unquoted piece of data stands for. -/
def unquotedItem (s : String) : Datum :=
  .unquoted (String.ofList (Text.trim s.toList))

/-- Reads data items separated by commas; where none stands, the item is empty. -/
def readData : List Lexeme → List Datum × List Lexeme
  | ⟨.string s, _⟩ :: ⟨.comma, _⟩ :: rest =>
    let (others, rest) := readData rest
    (.quoted s :: others, rest)
  | ⟨.datum s, _⟩ :: ⟨.comma, _⟩ :: rest =>
    let (others, rest) := readData rest
    (unquotedItem s :: others, rest)
  | ⟨.comma, _⟩ :: rest =>
    let (others, rest) := readData rest
    (.unquoted "" :: others, rest)
  | ⟨.string s, _⟩ :: rest => ([.quoted s], rest)
  | ⟨.datum s, _⟩ :: rest => ([unquotedItem s], rest)
  | ts => ([.unquoted ""], ts)

/-- Reads the parameters of a function, up to and including the closing parenthesis. -/
def readParameters (ts : List Lexeme) : Except Refusal (WithRest (List Ident)) :=
  match ts with
  | ⟨.name i, _⟩ :: ⟨.rightParen, _⟩ :: rest => pure ([i], rest)
  | ⟨.name i, _⟩ :: ⟨.comma, _⟩ :: rest => do
    let (others, rest) ← readParameters rest
    pure (i :: others, rest)
  | ⟨.name _, _⟩ :: rest => refuse rest "EXPECTED END OR SEPARATOR"
  | _ => refuse ts "EXPECTED IDENTIFIER"

/-- Reads a function definition after its `DEF`. -/
def readDefine (column : Span) (ts : List Lexeme) : Except Refusal (WithRest Command) := do
  let rest ← expect (.word .FN) "EXPECTED FN" ts
  let (i, rest) := functionName rest
  let (parameters, rest) ← match rest with
    | ⟨.leftParen, _⟩ :: rest => readParameters rest
    | _ => pure ([], rest)
  let rest ← expect (.operator (.binary .equal)) "EXPECTED =" rest
  let (body, rest) ← Expr.read rest
  pure (.define column i parameters body, rest)

/-- Reads array declarations after `DIM`. -/
def readDimension (column : Span) (ts : List Lexeme) : Except Refusal (WithRest Command) := do
  let (targets, rest) ← Target.readList (ts.length + 1) ts
  match targets.mapM Target.element? with
  | some arrays => pure (.dimension column arrays, rest)
  | none => refuse rest "EXPECTED DIMENSIONS"

/-- Reads the head of a loop after `FOR`. -/
def readLoop (column : Span) (ts : List Lexeme) : Except Refusal (WithRest Command) := do
  let ((_, i), rest) ← Target.readName ts
  if i.isText then refuse ts "EXPECTED NUMERIC VARIABLE"
  else
    let rest ← expect (.operator (.binary .equal)) "EXPECTED =" rest
    let (first, rest) ← Expr.read rest
    let rest ← expect (.word .TO) "EXPECTED TO" rest
    let (last, rest) ← Expr.read rest
    match rest with
    | ⟨.word .STEP, _⟩ :: rest => do
      let (step, rest) ← Expr.read rest
      pure (.loop column i first last (some step), rest)
    | _ => pure (.loop column i first last none, rest)

/-- Reads the prompt of an `INPUT`. After a semicolon it ends in a question mark, after a comma it
is shown as it is. -/
def readPrompt (ts : List Lexeme) : Except Refusal (WithRest String) :=
  match ts with
  | ⟨.string s, _⟩ :: ⟨.semicolon, _⟩ :: rest => pure (s ++ "? ", rest)
  | ⟨.string s, _⟩ :: ⟨.comma, _⟩ :: rest => pure (s, rest)
  | ⟨.string _, _⟩ :: rest => refuse rest "EXPECTED SEMICOLON"
  | _ => pure ("? ", ts)

/-- Reads the names after `NEXT`, of which there may be none; each one is a command of its own. -/
def readNextNames (ts : List Lexeme) : Except Refusal (WithRest (List Command)) :=
  match ts with
  | ⟨.name i, column⟩ :: ⟨.comma, _⟩ :: rest => do
    let (others, rest) ← readNextNames rest
    pure (.next column (some i) :: others, rest)
  | ⟨.name i, column⟩ :: rest => pure ([.next column (some i)], rest)
  | _ => refuse ts "EXPECTED IDENTIFIER"

/-- Reads the items of a `PRINT` up to the end of the statement, at most `count` of them. -/
def readItems : Nat → List Lexeme → Except Refusal (WithRest (List PrintItem))
  | 0, ts => exhausted ts
  | count + 1, ts =>
    if Lexeme.atEnd ts then pure ([], ts)
    else do
      let (first, rest) ← match ts with
        | ⟨.semicolon, column⟩ :: rest => pure (PrintItem.semicolon column, rest)
        | ⟨.comma, column⟩ :: rest => pure (PrintItem.comma column, rest)
        | _ => do
          let (value, rest) ← Expr.read ts
          pure (PrintItem.value value, rest)
      let (others, rest) ← readItems count rest
      pure (first :: others, rest)

/-- Reads an assignment after its `LET`, if it has one. -/
def readAssign (column : Span) (ts : List Lexeme) : Except Refusal (WithRest Command) := do
  let (target, rest) ← Target.read ts
  let rest ← expect (.operator (.binary .equal)) "EXPECTED =" rest
  let (value, rest) ← Expr.read rest
  pure (.assign column target value, rest)

/-- Reads a computed jump after its `ON`. -/
def readOn (column : Span) (ts : List Lexeme) : Except Refusal (WithRest Command) := do
  let (selector, rest) ← Expr.read ts
  match rest with
  | ⟨.word .GOTO, _⟩ :: rest | ⟨.word .GO_TO, _⟩ :: rest => do
    let (lines, rest) ← readLines rest
    pure (.onGoto column selector lines, rest)
  | ⟨.word .GOSUB, _⟩ :: rest | ⟨.word .GO_SUB, _⟩ :: rest => do
    let (lines, rest) ← readLines rest
    pure (.onGosub column selector lines, rest)
  | _ => refuse rest "EXPECTED GOTO OR GOSUB"

/-- Reads the line a `RESTORE` goes to, if one is given. -/
def readRestore (column : Span) (ts : List Lexeme) : Except Refusal (WithRest Command) :=
  match ts with
  | ⟨.number _, _⟩ :: _ | ⟨.string _, _⟩ :: _ => do
    let (line, rest) ← Lexeme.lineNumber ts
    pure (.restore column (some line), rest)
  | _ => pure (.restore column none, ts)

/-- Reads the one command a keyword other than `IF` and `NEXT` starts; `ts` is what follows it. -/
def readSingle (whole : List Lexeme) (word : Word) (column : Span) (ts : List Lexeme) :
    Except Refusal (WithRest Command) :=
  match word with
  | .CLEAR => pure (.clear column, ts)
  | .DATA =>
    let (items, rest) := readData ts
    pure (.data column items, rest)
  | .DEF => readDefine column ts
  | .DIM => readDimension column ts
  | .END => pure (.finish column, ts)
  | .FOR => readLoop column ts
  | .GOSUB | .GO_SUB => do
    let (line, rest) ← Lexeme.lineNumber ts
    pure (.gosub column line, rest)
  | .GOTO | .GO_TO => do
    let (line, rest) ← Lexeme.lineNumber ts
    pure (.goto column line, rest)
  | .INPUT => do
    let (prompt, rest) ← readPrompt ts
    let (targets, rest) ← Target.readList (rest.length + 1) rest
    pure (.input column prompt targets, rest)
  | .LET => readAssign column ts
  | .ON => readOn column ts
  | .PRINT | .QUESTION => do
    let (items, rest) ← readItems (ts.length + 1) ts
    pure (.print column items, rest)
  | .READ => do
    let (targets, rest) ← Target.readList (ts.length + 1) ts
    pure (.read column targets, rest)
  | .REM | .APOSTROPHE =>
    match ts with
    | ⟨.remark _, _⟩ :: rest => pure (.remark column, rest)
    | _ => pure (.remark column, ts)
  | .RESTORE => readRestore column ts
  | .RETURN => pure (.returnBack column, ts)
  | .STOP => pure (.stop column, ts)
  | .IF | .NEXT | .ELSE | .FN | .STEP | .THEN | .TO => refuse whole "EXPECTED STATEMENT"

/-- Reads a statement other than `IF`. One that starts with a name is an assignment, and a `NEXT`
with several names is several commands. -/
def readStatement (ts : List Lexeme) : Except Refusal (WithRest (List Command)) :=
  match ts with
  | ⟨.name _, column⟩ :: _ => do
    let (command, rest) ← readAssign column ts
    pure ([command], rest)
  | ⟨.word .NEXT, column⟩ :: rest =>
    match rest with
    | ⟨.name _, _⟩ :: _ => readNextNames rest
    | _ => pure ([.next column none], rest)
  | ⟨.word word, column⟩ :: rest => do
    let (command, rest) ← readSingle ts word column rest
    pure ([command], rest)
  | _ => refuse ts "EXPECTED STATEMENT"

end Command

namespace Statement

/-- A reader that appends what it reads to the statements already read. -/
abbrev Extender := List Lexeme → Array Statement → Except Refusal (WithRest (Array Statement))

/-- Reads a branch with `extend`. A line number at its front is a jump to that line. -/
def readBranch (extend : Extender) : Extender := fun ts code =>
  match ts with
  | ⟨.number _, column⟩ :: _ => do
    let (line, rest) ← Lexeme.lineNumber ts
    extend rest (code.push (.run (.goto column line)))
  | _ => extend ts code

/-- Reads what follows the predicate of an `IF`: a branch after `THEN`, or a jump. -/
def readOutcome (extend : Extender) : Extender := fun ts code =>
  match ts with
  | ⟨.word .THEN, _⟩ :: rest => readBranch extend rest code
  | ⟨.word .GOTO, column⟩ :: rest | ⟨.word .GO_TO, column⟩ :: rest => do
    let (line, rest) ← Lexeme.lineNumber rest
    extend rest (code.push (.run (.goto column line)))
  | _ => refuse ts "EXPECTED THEN"

/-- Reads an `IF` after its keyword: the predicate, what is done when it holds and, after an
`ELSE`, what is done when it does not. -/
def readIf (extend : Extender) (column : Span) : Extender := fun ts code => do
  let (predicate, rest) ← Expr.read ts
  let ifIndex := code.size
  let (code, rest) ← readOutcome extend rest (code.push (.branch column predicate 0))
  match rest with
  | ⟨.word .ELSE, elseColumn⟩ :: rest => do
    let elseIndex := code.size
    let code := setTarget (code.push (.skip elseColumn 0)) ifIndex (elseIndex + 1)
    let (code, rest) ← readBranch extend rest code
    pure (setTarget code elseIndex code.size, rest)
  | _ => pure (setTarget code ifIndex code.size, rest)

/-- Reads statements up to the end of the line or an `ELSE`, which is left unread. The first
argument bounds the depth of the calls, of which there is at most one for each token. -/
def readTo : Nat → Extender
  | 0, ts, _ => exhausted ts
  | depth + 1, ts, code =>
    match ts with
    | [] => pure (code, [])
    | ⟨.endOfLine, _⟩ :: _ | ⟨.word .ELSE, _⟩ :: _ => pure (code, ts)
    | ⟨.colon, _⟩ :: rest => readTo depth rest code
    | ⟨.word .IF, column⟩ :: rest => do
      let (code, rest) ← readIf (readTo depth) column rest code
      readTo depth rest code
    | _ => do
      let (commands, rest) ← Command.readStatement ts
      if Lexeme.atEnd rest then readTo depth rest (code ++ commands.map Statement.run)
      else refuse rest "UNEXPECTED TOKEN"

/-- Reads a whole line. An `ELSE` that is left over belongs to no `IF`. -/
def readLine (ts : List Lexeme) : Except Refusal (Array Statement) := do
  let (code, rest) ← readTo (ts.length + 1) ts #[]
  match rest with
  | [] | ⟨.endOfLine, _⟩ :: _ => pure code
  | _ => refuse rest "ELSE WITHOUT IF"

end Statement

end NumberedBasic
