import NumberedBasic.Token

/-!
# Expressions

The tree of an expression. Every node remembers the columns of the token it was read from, so that
a trace can show them.
-/

set_option autoImplicit false

namespace NumberedBasic

/-- An expression. A name with arguments in parentheses is an element of an array or a call of a
built-in function; which of the two is settled when it is evaluated. -/
inductive Expr where
  | number (column : Span) (value : Float)
  | string (column : Span) (value : String)
  | scalar (column : Span) (ident : Ident)
  | call (column : Span) (ident : Ident) (arguments : List Expr)
  | user (column : Span) (ident : Ident) (arguments : List Expr)
  | negate (column : Span) (operand : Expr)
  | not (column : Span) (operand : Expr)
  | binary (column : Span) (op : BinaryOp) (left right : Expr)

namespace Expr

/-- How tightly the operators before one operand bind: more than all binary ones but the power. -/
def unaryLevel : Nat := 60

end Expr

/-- An array element, or the bounds of an array in its declaration. -/
structure Element where
  column : Span
  ident : Ident
  subscripts : List Expr

namespace Element

/-- The name of the array. -/
def name (e : Element) : Name :=
  e.ident.name

end Element

/-- What a value can be assigned to. -/
inductive Target where
  | scalar (column : Span) (ident : Ident)
  | element (element : Element)

namespace Target

/-- The variable or the array. -/
def ident : Target → Ident
  | .scalar _ i => i
  | .element e => e.ident

/-- The name of the variable or of the array. -/
def name (target : Target) : Name :=
  target.ident.name

end Target

end NumberedBasic
