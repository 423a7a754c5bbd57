import NumberedBasic.Fault
import NumberedBasic.Name
import NumberedBasic.Number

/-!
# Values

A value is a number or a string. The name of a variable decides which of the two it holds.
-/

set_option autoImplicit false

namespace NumberedBasic

/-- A value of the language. -/
inductive Value where
  | number (x : Float)
  | string (s : String)
  deriving DecidableEq

namespace Value

/-- What a variable holds before it has been assigned to. -/
def default (name : Name) : Value :=
  if name.isText then .string "" else .number 0.0

/-- Whether a value is a string. -/
def isString : Value → Bool
  | .number _ => false
  | .string _ => true

/-- Whether an `IF` takes a value for true. -/
def isTrue : Value → Bool
  | .number x => x != 0.0
  | .string s => !s.isEmpty

/-- The truth values: all bits set, and none. -/
def ofBool (b : Bool) : Value :=
  .number (if b then -1.0 else 0.0)

/-- The text of a value in output. -/
def text : Value → String
  | .number x => Number.format x
  | .string s => s

/-- Whether a value is of the type that a name stands for. -/
def fits (value : Value) (name : Name) : Bool :=
  value.isString == name.isText

/-- Refuses a value that a name does not stand for. -/
def check (value : Value) (name : Name) : Except Fault Unit :=
  if value.fits name then .ok () else .error { code := .typeMismatch, detail := name }

/-- The number a value is. -/
def toNumber : Value → Except Fault Float
  | .number x => .ok x
  | .string _ => .error { code := .typeMismatch }

/-- The string a value is. -/
def toText : Value → Except Fault String
  | .string s => .ok s
  | .number _ => .error { code := .typeMismatch }

end Value

end NumberedBasic
