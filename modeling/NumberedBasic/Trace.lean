import NumberedBasic.Session.Execute
import NumberedBasic.Text.Escaped

/-!
# Traces

The text of statements, expressions and outcomes in the log of a run. Each is written as the name of
its kind with its parts in parentheses, columns first.
-/

set_option autoImplicit false

namespace NumberedBasic

namespace Trace

/-- A kind with its parts. -/
def node (kind : String) (parts : List String) : String :=
  kind ++ "(" ++ ", ".intercalate parts ++ ")"

/-- Items in order. -/
def list (items : List String) : String :=
  "[" ++ ", ".intercalate items ++ "]"

/-- Something that may be missing. -/
def option (item : Option String) : String :=
  match item with
  | some text => node "Some" [text]
  | none => "None"

/-- A number with all the digits it takes to read it back. Whole numbers keep a point, and an
exponent is used from `10 ^ 16` on and below `10 ^ -4`. -/
def number (x : Float) : String :=
  match Binary.ofFloat x with
  | .undefined => "NaN"
  | .infinite negative => if negative then "-inf" else "inf"
  | .finite negative significand exponent =>
    let (num, den) := Binary.ratio significand exponent
    let body :=
      if num = 0 then "0.0".toList
      else
        let (ds, leading) := Number.shortestDigits x.abs num den
        if x.abs ≥ 1e16 ∨ x.abs < 1e-4 then Number.scientific 'e' ds leading
        else
          let text := Number.positional ds leading
          if text.contains '.' then text else text ++ ".0".toList
    String.ofList (if negative then '-' :: body else body)

/-- A name. -/
def name (i : Ident) : String :=
  node (if i.isText then "String" else "Plain") [Text.escaped i.name]

/-- The name of a binary operator. -/
def binaryOp : BinaryOp → String
  | .power => "Power"
  | .multiply => "Multiply"
  | .divide => "Divide"
  | .add => "Add"
  | .subtract => "Subtract"
  | .equal => "Equal"
  | .notEqual => "NotEqual"
  | .less => "Less"
  | .lessEqual => "LessEqual"
  | .greater => "Greater"
  | .greaterEqual => "GreaterEqual"
  | .and => "And"
  | .or => "Or"

mutual

/-- An expression. -/
def expr : Expr → String
  | .number column x => node "Number" [column.text, number x]
  | .string column s => node "String" [column.text, Text.escaped s]
  | .scalar column n => node "Var" [column.text, name n]
  | .call column n arguments => node "Call" [column.text, name n, list (exprs arguments)]
  | .user column n arguments => node "UserFn" [column.text, name n, list (exprs arguments)]
  | .negate column operand => node "Negation" [column.text, expr operand]
  | .not column operand => node "Not" [column.text, expr operand]
  | .binary column op left right => node (binaryOp op) [column.text, expr left, expr right]

/-- Expressions in order. -/
def exprs : List Expr → List String
  | [] => []
  | e :: es => expr e :: exprs es

end

/-- An array element or declaration. -/
def element (e : Element) : String :=
  node "Array" [e.column.text, name e.ident, list (exprs e.subscripts)]

/-- A target. -/
def target : Target → String
  | .scalar column n => node "Unary" [column.text, name n]
  | .element e => element e

/-- An item of a `DATA` list. -/
def datum : Datum → String
  | .quoted s => node "Quoted" [Text.escaped s]
  | .unquoted s => node "Unquoted" [Text.escaped s]

/-- An item of a `PRINT` list. -/
def printItem : PrintItem → String
  | .value e => node "Expression" [expr e]
  | .comma column => node "Comma" [column.text]
  | .semicolon column => node "Semicolon" [column.text]

/-- A command. -/
def command : Command → String
  | .clear column => node "Clear" [column.text]
  | .data column items => node "Data" [column.text, list (items.map datum)]
  | .define column n parameters body =>
    node "Def" [column.text, name n, list (parameters.map name), expr body]
  | .dimension column arrays => node "Dim" [column.text, list (arrays.map element)]
  | .finish column => node "End" [column.text]
  | .loop column n first last step =>
    node "For" [column.text, name n, expr first, expr last, option (step.map expr)]
  | .gosub column line => node "Gosub" [column.text, toString line]
  | .goto column line => node "Goto" [column.text, toString line]
  | .input column prompt targets =>
    node "Input" [column.text, Text.escaped prompt, list (targets.map target)]
  | .assign column t value => node "Let" [column.text, target t, expr value]
  | .next column n => node "Next" [column.text, option (n.map name)]
  | .onGoto column selector lines =>
    node "OnGoto" [column.text, expr selector, list (lines.map toString)]
  | .onGosub column selector lines =>
    node "OnGosub" [column.text, expr selector, list (lines.map toString)]
  | .print column items => node "Print" [column.text, list (items.map printItem)]
  | .read column targets => node "Read" [column.text, list (targets.map target)]
  | .remark column => node "Rem" [column.text]
  | .restore column line => node "Restore" [column.text, option (line.map toString)]
  | .returnBack column => node "Return" [column.text]
  | .stop column => node "Stop" [column.text]

/-- A statement. -/
def statement : Statement → String
  | .run c => command c
  | .branch column predicate target => node "If" [column.text, expr predicate, toString target]
  | .skip column target => node "Else" [column.text, toString target]

/-- A fault. -/
def fault (f : Fault) : String :=
  "Error \x7b " ++ f.message ++ " \x7d"

/-- An outcome. -/
def outcome : Outcome → String
  | .ended => "End"
  | .broken line => node "Break" [option (line.map toString)]
  | .failed f => node "Error" [fault f]

end Trace

end NumberedBasic
