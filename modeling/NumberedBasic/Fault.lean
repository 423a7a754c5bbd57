/-!
# Faults

What can go wrong in a program, and how it is reported: a code, the line and the columns it is
about, and a detail. The wording of a report is `Fault.message`.
-/

set_option autoImplicit false

namespace NumberedBasic

/-- The number of a program line. -/
abbrev LineNumber := Nat

/-- The characters of a listed line from `start` up to but not including `stop`. -/
structure Span where
  start : Nat
  stop : Nat
  deriving DecidableEq, Repr

namespace Span

/-- The span of a report that names no columns. -/
def none : Span := ⟨0, 0⟩

/-- The text of a span. -/
def text (s : Span) : String :=
  toString s.start ++ ".." ++ toString s.stop

end Span

/-- Broad classes of faults. -/
inductive Kind where
  | lexical
  | syntactic
  | undefinedReference
  | type
  | bounds
  | controlFlow
  | arithmetic
  | resource
  | argument
  | internal
  deriving DecidableEq, Repr

/-- The faults, each with a number and a wording of its own. -/
inductive Code where
  | nextWithoutFor
  | syntaxError
  | returnWithoutGosub
  | outOfData
  | illegalFunctionCall
  | overflow
  | outOfMemory
  | undefinedLine
  | subscriptOutOfRange
  | redimensionedArray
  | divisionByZero
  | typeMismatch
  | undefinedUserFunction
  | forWithoutNext
  | internalError
  | inputPastEnd
  | directStatementInFile
  | illegalCharacter
  | undimensionedArray
  deriving DecidableEq, Repr

namespace Code

/-- Every code, in the order of the numbers. -/
def all : List Code :=
  [.nextWithoutFor, .syntaxError, .returnWithoutGosub, .outOfData, .illegalFunctionCall,
   .overflow, .outOfMemory, .undefinedLine, .subscriptOutOfRange, .redimensionedArray,
   .divisionByZero, .typeMismatch, .undefinedUserFunction, .forWithoutNext, .internalError,
   .inputPastEnd, .directStatementInFile, .illegalCharacter, .undimensionedArray]

/-- The number a code is known by. -/
def number : Code → Nat
  | .nextWithoutFor => 1
  | .syntaxError => 2
  | .returnWithoutGosub => 3
  | .outOfData => 4
  | .illegalFunctionCall => 5
  | .overflow => 6
  | .outOfMemory => 7
  | .undefinedLine => 8
  | .subscriptOutOfRange => 9
  | .redimensionedArray => 10
  | .divisionByZero => 11
  | .typeMismatch => 13
  | .undefinedUserFunction => 18
  | .forWithoutNext => 26
  | .internalError => 51
  | .inputPastEnd => 62
  | .directStatementInFile => 66
  | .illegalCharacter => 70
  | .undimensionedArray => 71

/-- The code known by a number. -/
def ofNumber? (n : Nat) : Option Code :=
  all.find? fun code => code.number == n

/-- The class a code belongs to. -/
def kind : Code → Kind
  | .illegalCharacter => .lexical
  | .syntaxError | .directStatementInFile => .syntactic
  | .undefinedLine | .undimensionedArray | .undefinedUserFunction => .undefinedReference
  | .typeMismatch => .type
  | .subscriptOutOfRange => .bounds
  | .nextWithoutFor | .returnWithoutGosub | .forWithoutNext => .controlFlow
  | .divisionByZero | .overflow => .arithmetic
  | .outOfMemory | .outOfData | .inputPastEnd => .resource
  | .illegalFunctionCall | .redimensionedArray => .argument
  | .internalError => .internal

/-- The wording of a code. -/
def text : Code → String
  | .nextWithoutFor => "NEXT WITHOUT FOR"
  | .syntaxError => "SYNTAX ERROR"
  | .returnWithoutGosub => "RETURN WITHOUT GOSUB"
  | .outOfData => "OUT OF DATA"
  | .illegalFunctionCall => "ILLEGAL FUNCTION CALL"
  | .overflow => "OVERFLOW"
  | .outOfMemory => "OUT OF MEMORY"
  | .undefinedLine => "UNDEFINED LINE"
  | .subscriptOutOfRange => "SUBSCRIPT OUT OF RANGE"
  | .redimensionedArray => "REDIMENSIONED ARRAY"
  | .divisionByZero => "DIVISION BY ZERO"
  | .typeMismatch => "TYPE MISMATCH"
  | .undefinedUserFunction => "UNDEFINED USER FUNCTION"
  | .forWithoutNext => "FOR WITHOUT NEXT"
  | .internalError => "INTERNAL ERROR"
  | .inputPastEnd => "INPUT PAST END"
  | .directStatementInFile => "DIRECT STATEMENT IN FILE"
  | .illegalCharacter => "ILLEGAL CHARACTER"
  | .undimensionedArray => "UNDIMENSIONED ARRAY"

end Code

/-- A fault as it is reported. The parts that are not known are left at their defaults. -/
structure Fault where
  code : Code
  detail : String := ""
  line : Option LineNumber := none
  column : Span := Span.none
  deriving DecidableEq, Repr

namespace Fault

/-- The fault placed in a line. -/
def inLine (fault : Fault) (line : Option LineNumber) : Fault :=
  { fault with line }

/-- The fault placed in the columns of a line. -/
def inColumn (fault : Fault) (column : Span) : Fault :=
  { fault with column }

/-- The fault with a detail. -/
def withDetail (fault : Fault) (detail : String) : Fault :=
  { fault with detail }

/-- The class of a fault. -/
def kind (fault : Fault) : Kind :=
  fault.code.kind

/-- The wording of a report: the code, then the line, the columns and the detail, each only where
the report has one. -/
def message (fault : Fault) : String :=
  let line := match fault.line with
    | some n => " IN " ++ toString n
    | none => ""
  let column := if fault.column = Span.none then "" else " (" ++ fault.column.text ++ ")"
  let detail := if fault.detail.isEmpty then "" else "; " ++ fault.detail
  fault.code.text ++ line ++ column ++ detail

/-- A syntax error with its detail. -/
def badSyntax (detail : String) : Fault :=
  ⟨.syntaxError, detail, none, Span.none⟩

end Fault

end NumberedBasic
