import NumberedBasic.Token
import NumberedBasic.Value

/-!
# Operations on values

What the operators compute. Arithmetic is that of doubles. The logical operators work on the bits
of integer parts, and relations yield the truth values.
-/

set_option autoImplicit false

namespace NumberedBasic

namespace Value

/-- The integer part of a number as a word of 64 bits, for the logical operators. -/
def toWord (x : Float) : Except Fault Int64 :=
  let n := Number.truncated x
  if n.isFinite ∧ n.abs < 9.2e18 then .ok (Int64.ofInt (Number.signedWord n))
  else .error { code := .overflow }

/-- The number a word of 64 bits is. -/
def ofWord (w : Int64) : Value :=
  .number (Float.ofInt w.toInt)

/-- The number with its sign changed. -/
def negate (value : Value) : Except Fault Value :=
  match value with
  | .number x => .ok (.number (-x))
  | .string _ => .error { code := .typeMismatch }

/-- The number with all bits of its integer part changed. -/
def not (value : Value) : Except Fault Value :=
  match value with
  | .number x => do return ofWord (~~~(← toWord x))
  | .string _ => .error { code := .typeMismatch }

end Value

namespace BinaryOp

/-- An operation on two numbers. -/
def arithmetic (f : Float → Float → Except Fault Value) (left right : Value) :
    Except Fault Value :=
  match left, right with
  | .number x, .number y => f x y
  | _, _ => .error { code := .typeMismatch }

/-- A relation between two numbers or two strings. -/
def relation (numbers : Float → Float → Bool) (strings : String → String → Bool)
    (left right : Value) : Except Fault Value :=
  match left, right with
  | .number x, .number y => .ok (Value.ofBool (numbers x y))
  | .string s, .string t => .ok (Value.ofBool (strings s t))
  | _, _ => .error { code := .typeMismatch }

/-- The sum of two numbers, or one string followed by another. -/
def sum : Value → Value → Except Fault Value
  | .number x, .number y => .ok (.number (x + y))
  | .string s, .string t => .ok (.string (s ++ t))
  | _, _ => .error { code := .typeMismatch }

/-- The quotient of two numbers. -/
def quotient (x y : Float) : Except Fault Value :=
  if y == 0.0 then .error { code := .divisionByZero } else .ok (.number (x / y))

/-- A logical operation on the bits of two numbers. -/
def bitwise (f : Int64 → Int64 → Int64) (x y : Float) : Except Fault Value := do
  let v ← Value.toWord x
  let w ← Value.toWord y
  return Value.ofWord (f v w)

/-- What a binary operator computes. -/
def apply : BinaryOp → Value → Value → Except Fault Value
  | .power => arithmetic fun x y => .ok (.number (Float.pow x y))
  | .multiply => arithmetic fun x y => .ok (.number (x * y))
  | .divide => arithmetic quotient
  | .add => sum
  | .subtract => arithmetic fun x y => .ok (.number (x - y))
  | .equal => relation (fun x y => x == y) (fun s t => s == t)
  | .notEqual => relation (fun x y => x != y) (fun s t => s != t)
  | .less => relation (fun x y => x < y) (fun s t => s < t)
  | .lessEqual => relation (fun x y => x ≤ y) (fun s t => s ≤ t)
  | .greater => relation (fun x y => y < x) (fun s t => t < s)
  | .greaterEqual => relation (fun x y => y ≤ x) (fun s t => t ≤ s)
  | .and => arithmetic (bitwise fun v w => v &&& w)
  | .or => arithmetic (bitwise fun v w => v ||| w)

end BinaryOp

end NumberedBasic
