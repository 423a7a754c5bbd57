import NumberedBasic.Cursor
import NumberedBasic.Decimal.Numeral
import NumberedBasic.Expr

/-!
# Reading expressions

Operators are read by precedence climbing: `operators` extends an operand to the right as long as
the next operator binds tighter than a given level. All binary operators associate to the left.

The readers call each other on what is left of the line. Their first argument bounds the depth of
these calls. At most two calls are nested for every token read, so that three times the number of
tokens is enough.
-/

set_option autoImplicit false

namespace NumberedBasic

/-- How tightly an operator binds; `NOT` binds least, so that no operand is extended by it. -/
def Operator.level : Operator → Nat
  | .binary op => op.level
  | .not => 0

/-- Two operands joined by an operator. -/
def Expr.join (column : Span) (op : Operator) (left right : Expr) : Expr :=
  match op with
  | .binary op => .binary column op left right
  | .not => .not column right

namespace Reader

mutual

/-- Reads an operand and the operators after it that bind tighter than `level`. -/
def expressionAt : Nat → Nat → Reader Expr
  | 0, _ => exhausted
  | depth + 1, level => do
    let left ← operand depth
    operators depth level left

/-- Reads an operand: an expression in parentheses, a name, a function call, a literal, or an
operand after a sign or `NOT`. -/
def operand : Nat → Reader Expr
  | 0 => exhausted
  | depth + 1 => do
    match ← next with
    | some .leftParen => do
      let inner ← expressionAt depth 0
      expect .rightParen
      return inner
    | some (.name i) => do
      let column ← column
      match ← peek with
      | some .leftParen => do
        expect .leftParen
        return .call column i (← argumentsTo depth)
      | _ => return .scalar column i
    | some (.word .FN) => do
      let column ← column
      let i ← functionName
      match ← peek with
      | some .leftParen => do
        expect .leftParen
        return .user column i (← argumentsTo depth)
      | _ => return .user column i []
    | some (.number s) => do
      let column ← column
      match Numeral.read? s.toList with
      | some x => return .number column x
      | none => refuse ("INVALID NUMBER " ++ s)
    | some (.string s) => return .string (← column) s
    | some (.operator (.binary .subtract)) => do
      let column ← column
      return .negate column (← expressionAt depth Expr.unaryLevel)
    | some (.operator (.binary .add)) => expressionAt depth Expr.unaryLevel
    | some (.operator .not) => do
      let column ← column
      return .not column (← expressionAt depth Expr.unaryLevel)
    | _ => refuse "EXPECTED EXPRESSION"

/-- Extends `left` by the operators that follow and bind tighter than `level`. -/
def operators : Nat → Nat → Expr → Reader Expr
  | 0, _, _ => exhausted
  | depth + 1, level, left => do
    match ← peek with
    | some (.operator op) =>
      if op.level ≤ level then return left
      else do
        let _ ← next
        let column ← column
        let right ← expressionAt depth op.level
        operators depth level (.join column op left right)
    | _ => return left

/-- Reads arguments separated by commas, up to and including the closing parenthesis. -/
def argumentsTo : Nat → Reader (List Expr)
  | 0 => exhausted
  | depth + 1 => do
    let first ← expressionAt depth 0
    match ← next with
    | some .rightParen => return [first]
    | some .comma => return first :: (← argumentsTo depth)
    | _ => refuse "EXPECTED END OR SEPARATOR"

end

/-- A depth that suffices for reading what is left. -/
def depth : Reader Nat :=
  return 3 * (← remaining) + 3

/-- Reads an expression. -/
def expression : Reader Expr := do
  expressionAt (← depth) 0

/-- Reads arguments in parentheses. -/
def arguments : Reader (List Expr) := do
  expect .leftParen
  argumentsTo (← depth)

end Reader

end NumberedBasic
