import NumberedBasic.Session
import NumberedBasic.Value.Operation

/-!
# Evaluating expressions

Operands are evaluated from left to right. A call of a function that the program has defined stores
the arguments in the variables its parameters name, evaluates its body, and puts the old values of
those variables back. Such calls may be nested a hundred deep.
-/

set_option autoImplicit false

namespace NumberedBasic.Session

open Effect

/-- Calls a built-in function. -/
def callBuiltin (b : Builtin) (arguments : List Value) : Effect Value := do
  let clock ← get Session.clock
  let dice ← get Session.dice
  let (value, dice) ← ofExcept (b.call clock dice arguments)
  modify fun s => { s with dice }
  return value

/-- The value of a name without arguments: of the built-in function with this name, if that needs no
arguments, and of the variable otherwise. -/
def evaluateName (name : Name) : Effect Value :=
  match Builtin.ofName? name with
  | some b => if b.arity.1 = 0 then callBuiltin b [] else get (·.memory.fetch name)
  | none => get (·.memory.fetch name)

/-- The value of a name with arguments: of the built-in function with this name, if there is one,
and of an array element otherwise. -/
def evaluateCall (name : Name) (arguments : List Value) : Effect Value :=
  match Builtin.ofName? name with
  | some b => callBuiltin b arguments
  | none => do ofExcept ((← get Session.memory).fetchElement name arguments)

mutual

/-- The value of an expression, where `call` calls the functions that the program has defined. -/
def evaluateWith (call : Name → List Value → Effect Value) : Expr → Effect Value
  | .number _ x => pure (.number x)
  | .string _ s => pure (.string s)
  | .scalar _ i => evaluateName i.name
  | .call _ i arguments => do evaluateCall i.name (← evaluateAllWith call arguments)
  | .user _ i arguments => do call i.name (← evaluateAllWith call arguments)
  | .negate _ operand => do ofExcept (← evaluateWith call operand).negate
  | .not _ operand => do ofExcept (← evaluateWith call operand).not
  | .binary _ op left right => do
    let x ← evaluateWith call left
    let y ← evaluateWith call right
    ofExcept (op.apply x y)

/-- The values of some expressions, from left to right. -/
def evaluateAllWith (call : Name → List Value → Effect Value) : List Expr → Effect (List Value)
  | [] => pure []
  | e :: es => do
    let value ← evaluateWith call e
    let values ← evaluateAllWith call es
    return value :: values

end

/-- Goes on with the memory that an operation on it yields. -/
def updateMemory (f : Memory → Except Fault Memory) : Effect Unit := do
  let memory ← ofExcept (f (← get Session.memory))
  modify fun s => { s with memory }

/-- Assigns to a variable. -/
def store (name : Name) (value : Value) : Effect Unit :=
  updateMemory (·.store name value)

/-- Assigns to variables in order. -/
def storeAll : List Name → List Value → Effect Unit
  | name :: names, value :: values => do
    store name value
    storeAll names values
  | _, _ => pure ()

/-- Refuses arguments that the parameters do not stand for. -/
def checkArguments : List Name → List Value → Except Fault Unit
  | name :: names, value :: values => do
    value.check name
    checkArguments names values
  | _, _ => .ok ()

/-- How deep calls of functions that the program has defined may be nested. -/
def maxCallDepth : Nat := 100

/-- Does something while parameters stand for arguments, and puts the old values of the variables
they shadow back, also when it fails. -/
def shadowing (parameters : List Name) (arguments : List Value) (body : Effect Value) :
    Effect Value := do
  let saved ← get fun s => parameters.map s.memory.fetch
  storeAll parameters arguments
  modify fun s => { s with callDepth := s.callDepth + 1 }
  let result ← attempt body
  modify fun s => { s with callDepth := s.callDepth - 1 }
  storeAll parameters saved
  ofExcept result

/-- The fault of a call that is nested too deep. -/
def nestingFault : Fault :=
  { code := .outOfMemory, detail := "FN NESTING TOO DEEP" }

/-- Calls a function that the program has defined. The recursion is on `room`, which bounds the
depth of the calls inside this one; with `maxCallDepth` for it, `callDepth` comes to its limit
first. -/
def callUser (room : Nat) (name : Name) (arguments : List Value) : Effect Value := do
  match (← get Session.functions)[name]? with
  | none => fail { code := .undefinedUserFunction, detail := name }
  | some a =>
    match (← get fun s => s.program.statement? a) with
    | some (_, .run (.define _ _ parameters body)) =>
      if parameters.length ≠ arguments.length then
        fail
          { code := .illegalFunctionCall
            detail := name ++ " TAKES " ++ toString parameters.length ++ " ARGUMENT(S)" }
      else do
        ofExcept (checkArguments (parameters.map Ident.name) arguments)
        if (← get Session.callDepth) ≥ maxCallDepth then fail nestingFault
        else
          match room with
          | 0 => fail nestingFault
          | room + 1 => do
            let value ←
              shadowing (parameters.map Ident.name) arguments (evaluateWith (callUser room) body)
            ofExcept (value.check name)
            return value
    | _ => fail { code := .internalError, detail := "DEF FN" }

/-- The value of an expression. -/
def evaluate (e : Expr) : Effect Value :=
  evaluateWith (callUser maxCallDepth) e

/-- The values of some expressions, from left to right. -/
def evaluateAll (es : List Expr) : Effect (List Value) :=
  evaluateAllWith (callUser maxCallDepth) es

/-- The value of an expression that has to be a number. -/
def evaluateNumber (e : Expr) : Effect Float := do
  ofExcept (← evaluate e).toNumber

end NumberedBasic.Session
