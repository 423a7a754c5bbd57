import NumberedBasic.Builtin.Name
import NumberedBasic.Random
import NumberedBasic.Value

/-!
# Built-in functions

What the built-in functions compute from their arguments. `RND` also moves the stream of random
numbers, and the clock answers `DATE$` and `TIME$`.
-/

set_option autoImplicit false

namespace NumberedBasic

/-- A date and a time of day. -/
structure Clock where
  year : Nat
  month : Nat
  day : Nat
  hour : Nat
  minute : Nat
  second : Nat

namespace Clock

/-- A number with zeros before it, so that it has at least `width` digits. -/
def padded (width n : Nat) : String :=
  let digits := toString n
  String.ofList (List.replicate (width - digits.length) '0') ++ digits

/-- The date: month, day and year. -/
def date (clock : Clock) : String :=
  padded 2 clock.month ++ "-" ++ padded 2 clock.day ++ "-" ++ padded 4 clock.year

/-- The time of day. -/
def time (clock : Clock) : String :=
  padded 2 clock.hour ++ ":" ++ padded 2 clock.minute ++ ":" ++ padded 2 clock.second

end Clock

namespace Builtin

/-- The fault of an argument a function is not defined for. -/
def illegal (b : Builtin) : Fault :=
  { code := .illegalFunctionCall, detail := b.name }

/-- The fault of an argument of the wrong type. -/
def mismatch (b : Builtin) (index : Nat) : Fault :=
  { code := .typeMismatch, detail := b.name ++ " ARGUMENT " ++ toString (index + 1) }

/-- An argument that has to be a number. -/
def numberAt (b : Builtin) (arguments : List Value) (index : Nat) : Except Fault Float :=
  match arguments[index]? with
  | some (.number x) => .ok x
  | some (.string _) => .error (b.mismatch index)
  | none => .error b.illegal

/-- An argument that has to be a string. -/
def textAt (b : Builtin) (arguments : List Value) (index : Nat) : Except Fault (List Char) :=
  match arguments[index]? with
  | some (.string s) => .ok s.toList
  | some (.number _) => .error (b.mismatch index)
  | none => .error b.illegal

/-- An argument that has to be a length or a position: its integer part, if that is not negative. -/
def countAt (b : Builtin) (arguments : List Value) (index : Nat) : Except Fault Nat := do
  let n := Number.truncated (← b.numberAt arguments index)
  if n < 0.0 ∨ !n.isFinite then .error b.illegal else .ok (Number.unsignedWord n)

/-- A function of one number. -/
def numeric (b : Builtin) (arguments : List Value) (f : Float → Float) : Except Fault Value := do
  return .number (f (← b.numberAt arguments 0))

/-- A function of one number that is not defined where `undefined` says so. -/
def numericUnless (b : Builtin) (arguments : List Value) (undefined : Float → Bool)
    (f : Float → Float) : Except Fault Value := do
  let x ← b.numberAt arguments 0
  if undefined x then .error b.illegal else .ok (.number (f x))

/-- The sign of a number. -/
def signum (x : Float) : Float :=
  if x > 0.0 then 1.0 else if x < 0.0 then -1.0 else 0.0

/-- The character with a code. -/
def character? (x : Float) : Option Char :=
  let code := (Number.saturated 0 4294967295 x).toNat
  if code.isValidChar ∧ x ≥ 0.0 then some (Char.ofNat code) else none

/-- A value that is a string of characters. -/
def ofChars (cs : List Char) : Value :=
  .string (String.ofList cs)

/-- What a function other than `RND` computes. -/
def compute (clock : Clock) (b : Builtin) (arguments : List Value) : Except Fault Value :=
  match b with
  | .ABS => b.numeric arguments Float.abs
  | .ASC => do
    match ← b.textAt arguments 0 with
    | c :: _ => .ok (.number (Float.ofNat c.toNat))
    | [] => .error b.illegal
  | .ATN => b.numeric arguments Float.atan
  | .CHR => do
    match character? (← b.numberAt arguments 0) with
    | some c => .ok (ofChars [c])
    | none => .error b.illegal
  | .COS => b.numeric arguments Float.cos
  | .DATE => .ok (.string clock.date)
  | .EXP => b.numeric arguments Float.exp
  | .INT => b.numeric arguments Float.floor
  | .LEFT => do
    let s ← b.textAt arguments 0
    let count ← b.countAt arguments 1
    return ofChars (s.take count)
  | .LEN => do return .number (Float.ofNat (← b.textAt arguments 0).length)
  | .LOG => b.numericUnless arguments (fun x => x ≤ 0.0) Float.log
  | .MID => do
    let s ← b.textAt arguments 0
    let position ← b.countAt arguments 1
    if position < 1 then .error b.illegal
    else if arguments.length > 2 then
      let count ← b.countAt arguments 2
      return ofChars ((s.drop (position - 1)).take count)
    else return ofChars (s.drop (position - 1))
  | .RIGHT => do
    let s ← b.textAt arguments 0
    let count ← b.countAt arguments 1
    return ofChars (s.drop (s.length - count))
  | .RND => .error b.illegal
  | .SGN => b.numeric arguments signum
  | .SIN => b.numeric arguments Float.sin
  | .SPC => do
    let count ← b.countAt arguments 0
    if count > 255 then .error b.illegal else return ofChars (List.replicate count ' ')
  | .SQR => b.numericUnless arguments (fun x => x < 0.0) Float.sqrt
  | .STR => do
    let x ← b.numberAt arguments 0
    return .string (if x ≥ 0.0 then " " ++ Number.format x else Number.format x)
  | .TAB => .error { code := .illegalFunctionCall, detail := "TAB IS ONLY VALID IN PRINT" }
  | .TAN => b.numeric arguments Float.tan
  | .TIME => .ok (.string clock.time)
  | .VAL => do return .number (Number.ofFront (← b.textAt arguments 0))

/-- The argument `RND` is given, which is one if it is left out. -/
def rollArgument (arguments : List Value) : Except Fault Float :=
  if arguments.isEmpty then .ok 1.0 else Builtin.RND.numberAt arguments 0

/-- The value of a call and the stream of random numbers after it. -/
def call (clock : Clock) (dice : Dice) (b : Builtin) (arguments : List Value) :
    Except Fault (Value × Dice) :=
  let (least, most) := b.arity
  if arguments.length < least ∨ most < arguments.length then
    .error { code := .illegalFunctionCall, detail := "WRONG NUMBER OF ARGUMENTS TO " ++ b.name }
  else if b = .RND then do
    let dice := dice.roll (← rollArgument arguments)
    return (.number dice.last, dice)
  else do return (← compute clock b arguments, dice)

end Builtin

end NumberedBasic
