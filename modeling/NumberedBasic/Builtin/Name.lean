import NumberedBasic.Name

/-!
# The names of the built-in functions
-/

set_option autoImplicit false

namespace NumberedBasic

/-- The built-in functions. -/
inductive Builtin where
  | ABS | ASC | ATN | CHR | COS | DATE | EXP | INT | LEFT | LEN | LOG | MID | RIGHT | RND | SGN
  | SIN | SPC | SQR | STR | TAB | TAN | TIME | VAL
  deriving DecidableEq, Repr

namespace Builtin

/-- Every built-in function. -/
def all : List Builtin :=
  [.ABS, .ASC, .ATN, .CHR, .COS, .DATE, .EXP, .INT, .LEFT, .LEN, .LOG, .MID, .RIGHT, .RND, .SGN,
   .SIN, .SPC, .SQR, .STR, .TAB, .TAN, .TIME, .VAL]

/-- The name of a built-in function. All but `SPC`, which yields blanks, follow the rule that the
functions with a `$` are those that yield strings. -/
def name : Builtin → Name
  | .ABS => "ABS"
  | .ASC => "ASC"
  | .ATN => "ATN"
  | .CHR => "CHR$"
  | .COS => "COS"
  | .DATE => "DATE$"
  | .EXP => "EXP"
  | .INT => "INT"
  | .LEFT => "LEFT$"
  | .LEN => "LEN"
  | .LOG => "LOG"
  | .MID => "MID$"
  | .RIGHT => "RIGHT$"
  | .RND => "RND"
  | .SGN => "SGN"
  | .SIN => "SIN"
  | .SPC => "SPC"
  | .SQR => "SQR"
  | .STR => "STR$"
  | .TAB => "TAB"
  | .TAN => "TAN"
  | .TIME => "TIME$"
  | .VAL => "VAL"

/-- The built-in function with a name. -/
def ofName? (name : Name) : Option Builtin :=
  all.find? fun b => b.name == name

/-- The names of built-in functions may not be assigned to. -/
def isReserved (name : Name) : Bool :=
  (ofName? name).isSome

/-- The least and the greatest number of arguments a function takes. -/
def arity : Builtin → Nat × Nat
  | .DATE | .TIME => (0, 0)
  | .RND => (0, 1)
  | .LEFT | .RIGHT => (2, 2)
  | .MID => (2, 3)
  | _ => (1, 1)

end Builtin

end NumberedBasic
