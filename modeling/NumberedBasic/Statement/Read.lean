import NumberedBasic.Builtin.Name
import NumberedBasic.Expr.Read
import NumberedBasic.Statement
import NumberedBasic.Text.Blank

/-!
# Reading the statements of a line

`Reader.statements` reads a line, or what follows a `THEN` or an `ELSE`, as far as the end of the
line or an `ELSE` that belongs to an `IF` further out, and appends the statements to those already
read. The targets of an `IF` and of its `ELSE` are filled in when the ends of its branches are
known. `Statement.parse` turns the tokens of a whole line into the statements that are stored.
-/

set_option autoImplicit false

namespace NumberedBasic

namespace Target

/-- The array element a target is, if it is one. -/
def element? : Target → Option Element
  | .scalar _ _ => none
  | .element e => some e

end Target

namespace Statement

/-- The statement with another target, if it is an `IF` or an `ELSE`. -/
def withTarget (target : Nat) : Statement → Statement
  | .run command => .run command
  | .branch column predicate _ => .branch column predicate target
  | .skip column _ => .skip column target

/-- Fills in the target of the `IF` or `ELSE` at `index`. -/
def setTarget (code : Array Statement) (index target : Nat) : Array Statement :=
  code.modify index (withTarget target)

end Statement

namespace Reader

/-! ## Targets -/

/-- Takes a name that may be assigned to. The names of the built-in functions may not. -/
def targetName : Reader (Span × Ident) := do
  let (column, i) ← name
  if Builtin.isReserved i.name then refuse "RESERVED FOR BUILT-IN" else return (column, i)

/-- Reads a variable or an array element. -/
def target : Reader Target := do
  let (column, i) ← targetName
  match ← peek with
  | some .leftParen => return .element ⟨column, i, ← arguments⟩
  | _ => return .scalar column i

/-! ## Commands -/

/-- Reads a data item; where none stands, the item is empty. -/
def datum : Reader Datum := do
  match ← peek with
  | some (.string s) => do
    let _ ← next
    return .quoted s
  | some (.datum s) => do
    let _ ← next
    return .unquoted (String.ofList (Text.trim s.toList))
  | _ => return .unquoted ""

/-- Reads the parameters of a function, at most `count` of them, up to and including the closing
parenthesis. -/
def parametersTo : Nat → Reader (List Ident)
  | 0 => exhausted
  | count + 1 => do
    let (_, first) ← name
    match ← next with
    | some .rightParen => return [first]
    | some .comma => return first :: (← parametersTo count)
    | _ => refuse "EXPECTED END OR SEPARATOR"

/-- Reads the parameters of a function, if it has some. -/
def parameters : Reader (List Ident) := do
  match ← peek with
  | some .leftParen => do
    let _ ← next
    parametersTo ((← remaining) + 1)
  | _ => return []

/-- Reads a function definition after its `DEF`. -/
def define (column : Span) : Reader Command := do
  expect (.word .FN)
  let i ← functionName
  let parameters ← parameters
  expect (.operator (.binary .equal))
  return .define column i parameters (← expression)

/-- Reads array declarations after `DIM`. -/
def dimension (column : Span) : Reader Command := do
  let targets ← list target
  match targets.mapM Target.element? with
  | some arrays => return .dimension column arrays
  | none => refuse "EXPECTED DIMENSIONS"

/-- Reads the head of a loop after `FOR`. -/
def loop (column : Span) : Reader Command := do
  let (_, i) ← targetName
  if i.isText then refuse "EXPECTED NUMERIC VARIABLE"
  else do
    expect (.operator (.binary .equal))
    let first ← expression
    expect (.word .TO)
    let last ← expression
    match ← peek with
    | some (.word .STEP) => do
      let _ ← next
      return .loop column i first last (some (← expression))
    | _ => return .loop column i first last none

/-- Reads the prompt of an `INPUT`. After a semicolon it ends in a question mark, after a comma it
is shown as it is. -/
def prompt : Reader String := do
  match ← peek with
  | some (.string s) => do
    let _ ← next
    match ← next with
    | some .semicolon => return s ++ "? "
    | some .comma => return s
    | _ => refuse "EXPECTED SEMICOLON"
  | _ => return "? "

/-- Reads an `INPUT` after its keyword. -/
def input (column : Span) : Reader Command := do
  let prompt ← prompt
  return .input column prompt (← list target)

/-- Reads an assignment after its `LET`, if it has one. -/
def assign (column : Span) : Reader Command := do
  let target ← target
  expect (.operator (.binary .equal))
  return .assign column target (← expression)

/-- Reads one of the names after `NEXT`; each one is a command of its own. -/
def nextName : Reader Command := do
  let (column, i) ← name
  return .next column (some i)

/-- Reads what follows `NEXT`. -/
def nextNames (column : Span) : Reader (List Command) := do
  match ← peek with
  | some (.name _) => list nextName
  | _ => return [.next column none]

/-- Reads the items of a `PRINT` up to the end of the statement, at most `count` of them. -/
def itemsTo : Nat → Reader (List PrintItem)
  | 0 => exhausted
  | count + 1 => do
    if ← atEnd then return []
    else do
      let first ← match ← peek with
        | some .semicolon => do
          let _ ← next
          pure (PrintItem.semicolon (← column))
        | some .comma => do
          let _ ← next
          pure (PrintItem.comma (← column))
        | _ => do pure (PrintItem.value (← expression))
      return first :: (← itemsTo count)

/-- Reads a `PRINT` after its keyword. -/
def print (column : Span) : Reader Command := do
  return .print column (← itemsTo ((← remaining) + 1))

/-- Reads a computed jump after its `ON`. -/
def computed (column : Span) : Reader Command := do
  let selector ← expression
  match ← next with
  | some (.word .GOTO) | some (.word .GO_TO) =>
    return .onGoto column selector (← list lineNumber)
  | some (.word .GOSUB) | some (.word .GO_SUB) =>
    return .onGosub column selector (← list lineNumber)
  | _ => refuse "EXPECTED GOTO OR GOSUB"

/-- Reads a remark after its keyword. -/
def remark (column : Span) : Reader Command := do
  match ← peek with
  | some (.remark _) => do
    let _ ← next
    return .remark column
  | _ => return .remark column

/-- Reads the line a `RESTORE` goes to, if one is given. -/
def restore (column : Span) : Reader Command := do
  match ← peek with
  | some (.number _) | some (.string _) => return .restore column (some (← lineNumber))
  | _ => return .restore column none

/-- Reads the one command that a keyword other than `IF` and `NEXT` starts, after the keyword. -/
def command (word : Word) (column : Span) : Reader Command :=
  match word with
  | .CLEAR => return .clear column
  | .DATA => return .data column (← list datum)
  | .DEF => define column
  | .DIM => dimension column
  | .END => return .finish column
  | .FOR => loop column
  | .GOSUB | .GO_SUB => return .gosub column (← lineNumber)
  | .GOTO | .GO_TO => return .goto column (← lineNumber)
  | .INPUT => input column
  | .LET => assign column
  | .ON => computed column
  | .PRINT | .QUESTION => print column
  | .READ => return .read column (← list target)
  | .REM | .APOSTROPHE => remark column
  | .RESTORE => restore column
  | .RETURN => return .returnBack column
  | .STOP => return .stop column
  | .IF | .NEXT | .ELSE | .FN | .STEP | .THEN | .TO => refuse "EXPECTED STATEMENT"

/-! ## Statements -/

/-- A reader that appends what it reads to the statements already read. -/
abbrev Extender := Array Statement → Reader (Array Statement)

/-- Reads a branch with `extend`. A line number at its front is a jump to that line. -/
def branch (extend : Extender) : Extender := fun code => do
  match ← peek with
  | some (.number _) => do
    let column ← column
    let line ← lineNumber
    extend (code.push (.run (.goto column line)))
  | _ => extend code

/-- Reads what follows the predicate of an `IF`: a branch after `THEN`, or a jump. -/
def outcome (extend : Extender) : Extender := fun code => do
  match ← next with
  | some (.word .THEN) => branch extend code
  | some (.word .GOTO) | some (.word .GO_TO) => do
    let column ← column
    let line ← lineNumber
    extend (code.push (.run (.goto column line)))
  | _ => refuse "EXPECTED THEN"

/-- Reads an `IF` after its keyword: the predicate, what is done when it holds and, after an
`ELSE`, what is done when it does not. -/
def conditional (extend : Extender) (column : Span) : Extender := fun code => do
  let predicate ← expression
  let ifIndex := code.size
  let code ← outcome extend (code.push (.branch column predicate 0))
  match ← peek with
  | some (.word .ELSE) => do
    let _ ← next
    let elseIndex := code.size
    let code := code.push (.skip (← Reader.column) 0)
    let code ← branch extend (Statement.setTarget code ifIndex (elseIndex + 1))
    return Statement.setTarget code elseIndex code.size
  | _ => return Statement.setTarget code ifIndex code.size

/-- Reads the statement that a keyword starts. -/
def keyword (extend : Extender) (word : Word) : Extender := fun code => do
  let column ← column
  match word with
  | .IF => conditional extend column code
  | .NEXT => return code ++ (← nextNames column).map Statement.run
  | _ => return code.push (.run (← command word column))

/-- Reads a statement. One that starts with a name is an assignment. -/
def statement (extend : Extender) : Extender := fun code => do
  match ← peek with
  | some (.name _) => keyword extend .LET code
  | some (.word word) => do
    let _ ← next
    keyword extend word code
  | _ => do
    let _ ← next
    refuse "EXPECTED STATEMENT"

/-- Reads statements up to the end of the line or an `ELSE`, which is left unread. The first
argument bounds the depth of the calls, of which there is at most one for each token. -/
def statements : Nat → Extender
  | 0, _ => exhausted
  | depth + 1, code => do
    match ← peek with
    | none | some .endOfLine | some (.word .ELSE) => return code
    | some .colon => do
      let _ ← next
      statements depth code
    | _ => do
      let code ← statement (statements depth) code
      if ← atEnd then statements depth code
      else do
        let _ ← next
        refuse "UNEXPECTED TOKEN"

end Reader

namespace Statement

/-- The statements of a line with the given number and tokens. An `ELSE` that is left over belongs
to no `IF`. A fault is placed where the cursor has come to. -/
def parse (line : Option LineNumber) (tokens : List Token) : Except Fault (List Statement) :=
  let start := Cursor.start tokens
  match Reader.statements (start.remaining + 1) #[] start with
  | (.error fault, cursor) => .error ((fault.inColumn cursor.column).inLine line)
  | (.ok code, cursor) =>
    match cursor.next with
    | (none, _) | (some .endOfLine, _) => .ok code.toList
    | (some _, cursor) =>
      .error (((Fault.badSyntax "ELSE WITHOUT IF").inColumn cursor.column).inLine line)

end Statement

end NumberedBasic
