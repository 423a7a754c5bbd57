import NumberedBasic.Decimal
import NumberedBasic.Fault
import NumberedBasic.Name

/-!
# Tokens

The pieces a line is made of, and the one spelling each of them has in a listing.
-/

set_option autoImplicit false

namespace NumberedBasic

/-- The keywords. Four of them have a second spelling, which is kept for the listing. -/
inductive Word where
  | CLEAR | DATA | DEF | DIM | ELSE | END | FN | FOR | GOSUB | GO_SUB | GOTO | GO_TO | IF | INPUT
  | LET | NEXT | ON | PRINT | QUESTION | READ | REM | APOSTROPHE | RESTORE | RETURN | STEP | STOP
  | THEN | TO
  deriving DecidableEq, Repr

namespace Word

/-- Every keyword. -/
def all : List Word :=
  [.CLEAR, .DATA, .DEF, .DIM, .ELSE, .END, .FN, .FOR, .GOSUB, .GO_SUB, .GOTO, .GO_TO, .IF, .INPUT,
   .LET, .NEXT, .ON, .PRINT, .QUESTION, .READ, .REM, .APOSTROPHE, .RESTORE, .RETURN, .STEP, .STOP,
   .THEN, .TO]

/-- The spelling of a keyword. -/
def text : Word → String
  | .CLEAR => "CLEAR"
  | .DATA => "DATA"
  | .DEF => "DEF"
  | .DIM => "DIM"
  | .ELSE => "ELSE"
  | .END => "END"
  | .FN => "FN"
  | .FOR => "FOR"
  | .GOSUB => "GOSUB"
  | .GO_SUB => "GO SUB"
  | .GOTO => "GOTO"
  | .GO_TO => "GO TO"
  | .IF => "IF"
  | .INPUT => "INPUT"
  | .LET => "LET"
  | .NEXT => "NEXT"
  | .ON => "ON"
  | .PRINT => "PRINT"
  | .QUESTION => "?"
  | .READ => "READ"
  | .REM => "REM"
  | .APOSTROPHE => "'"
  | .RESTORE => "RESTORE"
  | .RETURN => "RETURN"
  | .STEP => "STEP"
  | .STOP => "STOP"
  | .THEN => "THEN"
  | .TO => "TO"

end Word

/-- The operators that stand between two operands. -/
inductive BinaryOp where
  | power | multiply | divide | add | subtract
  | equal | notEqual | less | lessEqual | greater | greaterEqual
  | and | or
  deriving DecidableEq, Repr

namespace BinaryOp

/-- Every binary operator. -/
def all : List BinaryOp :=
  [.power, .multiply, .divide, .add, .subtract, .equal, .notEqual, .less, .lessEqual, .greater,
   .greaterEqual, .and, .or]

/-- The spelling of a binary operator. -/
def text : BinaryOp → String
  | .power => "^"
  | .multiply => "*"
  | .divide => "/"
  | .add => "+"
  | .subtract => "-"
  | .equal => "="
  | .notEqual => "<>"
  | .less => "<"
  | .lessEqual => "<="
  | .greater => ">"
  | .greaterEqual => ">="
  | .and => "AND"
  | .or => "OR"

/-- How tightly a binary operator binds. -/
def level : BinaryOp → Nat
  | .or => 10
  | .and => 20
  | .equal | .notEqual | .less | .lessEqual | .greater | .greaterEqual => 30
  | .add | .subtract => 40
  | .multiply | .divide => 50
  | .power => 70

end BinaryOp

/-- The operators: those between two operands, and negation of truth, which only stands before
one. -/
inductive Operator where
  | binary (op : BinaryOp)
  | not
  deriving DecidableEq, Repr

namespace Operator

/-- Every operator. -/
def all : List Operator :=
  BinaryOp.all.map .binary ++ [.not]

/-- The spelling of an operator. -/
def text : Operator → String
  | .binary op => op.text
  | .not => "NOT"

end Operator

/-- A piece of a line. -/
inductive Token where
  | unknown (text : String)
  | blank (width : Nat)
  | number (text : String)
  | string (content : String)
  | word (word : Word)
  | operator (op : Operator)
  | name (ident : Ident)
  | remark (text : String)
  | datum (text : String)
  | leftParen
  | rightParen
  | comma
  | colon
  | semicolon
  | endOfLine
  deriving DecidableEq, Repr

namespace Token

/-- A string in the form that can be read back: between quotes, with each quote in it doubled. -/
def quote (content : String) : String :=
  let body := content.toList.flatMap fun c => if c == '"' then ['"', '"'] else [c]
  String.ofList ('"' :: body ++ ['"'])

/-- The text of a token in a listing. -/
def text : Token → String
  | .unknown s | .remark s | .datum s | .number s => s
  | .blank width => String.ofList (List.replicate width ' ')
  | .string content => quote content
  | .word w => w.text
  | .operator op => op.text
  | .name i => i.name
  | .leftParen => "("
  | .rightParen => ")"
  | .comma => ","
  | .colon => ":"
  | .semicolon => ";"
  | .endOfLine => ""

/-- Whether a token is more than a blank. -/
def isSolid : Token → Bool
  | .blank _ => false
  | _ => true

/-- The tokens that have one fixed spelling. -/
def fixed : List Token :=
  Word.all.map .word ++ Operator.all.map .operator ++
    [.leftParen, .rightParen, .comma, .colon, .semicolon]

/-- The fixed tokens beside their spellings. -/
def spellings : List (List Char × Token) :=
  fixed.map fun t => (t.text.toList, t)

/-- The fixed token with a spelling. -/
def ofSpelling? (cs : List Char) : Option Token :=
  spellings.lookup cs

/-- The largest number a line may have. -/
def maxLineNumber : LineNumber := 65529

/-- The line number a list of digits stands for. -/
def lineNumberOfDigits? (ds : List Char) : Option LineNumber :=
  let n := Decimal.value ds
  if !ds.isEmpty && n ≤ maxLineNumber then some n else none

/-- The line number a token stands for: digits only, and not beyond the largest line number. -/
def lineNumber : Token → Except Fault LineNumber
  | .number s =>
    if s.toList.all Char.isDigit then
      match lineNumberOfDigits? s.toList with
      | some n => .ok n
      | none => .error { code := .overflow, detail := "INVALID LINE NUMBER" }
    else .error (Fault.badSyntax "INVALID LINE NUMBER")
  | _ => .error (Fault.badSyntax "INVALID LINE NUMBER")

end Token

end NumberedBasic
