import NumberedBasic.Reply
import NumberedBasic.Session.Evaluate

/-!
# Performing statements

What each statement does to a session, and where the run goes on after it.
-/

set_option autoImplicit false

namespace NumberedBasic

/-- Where a run goes on after a statement. -/
inductive Course where
  | next
  | jump (target : Address)
  | ask (prompt : String)
  | finish
  | stop
  deriving DecidableEq, Repr

namespace Program

/-- Where to go on when the loop over `name` is passed over, if `depth` loops have been opened since
its head and the walk has come to `cursor`: after the `NEXT` that closes it, or at that `NEXT` if it
names another loop. -/
def loopExit? (program : Program) (name : Name) (depth : Nat) (cursor : Address) :
    Option Address :=
  match found : program.statement? cursor with
  | none => none
  | some (a, statement) =>
    match statement, depth with
    | .run (.loop ..), depth => program.loopExit? name (depth + 1) a.next
    | .run (.next _ (some other)), 0 => some (if other.name = name then a.next else a)
    | .run (.next _ none), 0 => some a.next
    | .run (.next ..), depth + 1 => program.loopExit? name depth a.next
    | _, depth => program.loopExit? name depth a.next
termination_by program.remaining cursor
decreasing_by all_goals exact program.remaining_next_lt found

end Program

namespace Session

open Effect

/-- The column after a text that is written from `column` on. -/
def columnAfter (column : Nat) (cs : List Char) : Nat :=
  cs.foldl (fun n c => if c == '\n' then 0 else n + 1) column

/-- Writes a text. -/
def write (text : String) : Effect Unit :=
  modify fun s =>
    { s with output := s.output ++ text, column := columnAfter s.column text.toList }

/-- Writes some blanks. -/
def writeBlanks (count : Nat) : Effect Unit :=
  write (String.ofList (List.replicate count ' '))

/-- Assigns to a target. The subscripts of an element are evaluated now. -/
def assign (target : Target) (value : Value) : Effect Unit :=
  match target with
  | .scalar _ i => store i.name value
  | .element e => do
    let subscripts ← evaluateAll e.subscripts
    let offset ← ofExcept ((← get Session.memory).target e.name subscripts value)
    modify fun s => { s with memory := s.memory.putElement e.name offset value }

/-- Assigns to targets in order. -/
def assignAll : List Target → List Value → Effect Unit
  | target :: targets, value :: values => do
    assign target value
    assignAll targets values
  | _, _ => pure ()

/-- The place of a line that is jumped to. -/
def findLine (n : LineNumber) : Effect Address := do
  match (← get Session.program).findLine? n with
  | some a => return a
  | none => fail { code := .undefinedLine, detail := toString n }

/-- Goes to a line. -/
def goto (n : LineNumber) : Effect Course := do
  return .jump (← findLine n)

/-- Goes to a line from `here`, to come back after it. -/
def gosub (here : Address) (n : LineNumber) : Effect Course := do
  let target ← findLine n
  let returns ← ofExcept ((← get Session.returns).push here.next)
  modify fun s => { s with returns }
  return .jump target

/-- Goes back to where the last `GOSUB` came from. -/
def returnBack : Effect Course := do
  match (← get Session.returns).top? with
  | some target => do
    modify fun s => { s with returns := s.returns.pop }
    return .jump target
  | none => fail { code := .returnWithoutGosub }

/-- The line that a computed jump goes to; none if there is none for the value of its selector. -/
def select (selector : Expr) (lines : List LineNumber) : Effect (Option LineNumber) := do
  let n := Number.truncated (← evaluateNumber selector)
  if 0.0 ≤ n ∧ n ≤ 255.0 then do
    let n := Number.unsignedWord n
    return if n = 0 then none else lines[n - 1]?
  else fail { code := .illegalFunctionCall, detail := "ON INDEX" }

/-- Declares arrays in order. -/
def dimension : List Element → Effect Unit
  | [] => pure ()
  | e :: rest => do
    let bounds ← evaluateAll e.subscripts
    updateMemory (·.dimension e.name bounds)
    dimension rest

/-- Passes over the loop over `name` whose head is `here`. -/
def skipLoop (here : Address) (name : Name) : Effect Course := do
  match (← get Session.program).loopExit? name 0 here.next with
  | some target => return .jump target
  | none => fail { code := .forWithoutNext, detail := name }

/-- The loops without that over `name` and those opened inside it. -/
def leaveLoop (name : Name) (loops : BoundedStack Loop) : BoundedStack Loop :=
  match loops.topmost? (·.name == name) with
  | some i => loops.truncate i
  | none => loops

/-- Whether a loop variable has gone past its limit. -/
def isPast (step limit x : Float) : Bool :=
  if step > 0.0 then x > limit else x < limit

/-- Whether a loop variable is still within its limit. -/
def isWithin (step limit x : Float) : Bool :=
  if step > 0.0 then x ≤ limit else x ≥ limit

/-- The step of a loop, which is one if none is given. -/
def loopStep : Option Expr → Effect Float
  | some e => evaluateNumber e
  | none => pure 1.0

/-- Enters a loop whose head is `here`, or passes over it if its range is empty. -/
def enterLoop (here : Address) (name : Name) (first last : Expr) (step : Option Expr) :
    Effect Course := do
  let value ← evaluate first
  store name value
  let x ← ofExcept value.toNumber
  let limit ← evaluateNumber last
  let step ← loopStep step
  if step == 0.0 then fail { code := .illegalFunctionCall, detail := "FOR STEP 0" }
  else do
    modify fun s => { s with loops := leaveLoop name s.loops }
    if isPast step limit x then skipLoop here name
    else do
      let loops ← ofExcept ((← get Session.loops).push ⟨name, limit, step, here.next⟩)
      modify fun s => { s with loops }
      return .next

/-- The loop that a `NEXT` continues: the innermost one, or the innermost one over `name`. -/
def loopIndex? (name : Option Name) (loops : BoundedStack Loop) : Option Nat :=
  match name with
  | some name => loops.topmost? (·.name == name)
  | none => if loops.depth = 0 then none else some (loops.depth - 1)

/-- Moves the variable of the innermost loop on, and goes back to its body or leaves it. -/
def advanceLoop (loop : Loop) : Effect Course := do
  let x ← ofExcept ((← get Session.memory).fetch loop.name).toNumber
  let x := x + loop.step
  store loop.name (.number x)
  if isWithin loop.step loop.limit x then return .jump loop.body
  else do
    modify fun s => { s with loops := s.loops.pop }
    return .next

/-- Continues a loop, and leaves those opened inside it. -/
def continueLoop (name : Option Name) : Effect Course := do
  match loopIndex? name (← get Session.loops) with
  | none => fail { code := .nextWithoutFor, detail := name.getD "" }
  | some i => do
    modify fun s => { s with loops := s.loops.truncate (i + 1) }
    match (← get Session.loops).top? with
    | none => fail { code := .internalError, detail := "FOR STACK" }
    | some loop => advanceLoop loop

/-- Goes on to the next print zone. -/
def nextZone : Effect Unit := do
  let zone ← get fun s => max s.config.printZone 1
  let column ← get Session.column
  writeBlanks (zone - column % zone)

/-- Goes on to a column, counted from one, on the next line if it has been passed. -/
def tabTo (x : Float) : Effect Unit := do
  let n := Number.truncated x
  if 1.0 ≤ n ∧ n ≤ 255.0 then do
    let column := Number.unsignedWord n - 1
    if (← get Session.column) > column then write "\n"
    writeBlanks (column - (← get Session.column))
  else fail { code := .illegalFunctionCall, detail := "TAB" }

/-- The argument of a `TAB` that stands as an item of its own. -/
def tabArgument? : Expr → Option Expr
  | .call _ i [argument] => if i.name = "TAB" then some argument else none
  | _ => none

/-- Writes an item of a `PRINT`. -/
def printItem : PrintItem → Effect Unit
  | .comma _ => nextZone
  | .semicolon _ => pure ()
  | .value e =>
    match tabArgument? e with
    | some argument => do tabTo (← evaluateNumber argument)
    | none => do write (← evaluate e).text

/-- Whether a `PRINT` goes on to a new line if an item is its last: not after a comma or a
semicolon. -/
def endsLine : PrintItem → Bool
  | .comma _ | .semicolon _ => false
  | .value _ => true

/-- Writes items in order. Each of them says anew whether a new line is to follow; before the first
one this is `newline`. -/
def printItems (newline : Bool) : List PrintItem → Effect Bool
  | [] => pure newline
  | item :: items => do
    printItem item
    printItems (endsLine item) items

/-- Writes the items of a `PRINT`. -/
def print (items : List PrintItem) : Effect Unit := do
  if ← printItems true items then write "\n"

/-- The value of a field for a target. -/
def fieldValue (i : Ident) (field : ReplyField) : Except Fault Value :=
  if i.isText then .ok (.string field.text)
  else
    let bad : Fault := { code := .typeMismatch, detail := field.text ++ " IS NOT A NUMBER" }
    if field.quoted then .error bad
    else
      match Number.ofField? field.text.toList with
      | some x => .ok (.number x)
      | none => .error bad

/-- The values of fields for targets. -/
def fieldValues : List Ident → List ReplyField → Except Fault (List Value)
  | i :: is, field :: fields => do
    let value ← fieldValue i field
    let values ← fieldValues is fields
    return value :: values
  | _, _ => .ok []

/-- The values of a reply for targets. -/
def replyValues (is : List Ident) (fields : List ReplyField) : Except Fault (List Value) :=
  if fields.length < is.length then
    .error { code := .inputPastEnd, detail := "TOO FEW VALUES" }
  else fieldValues is fields

/-- Takes the reply that has been supplied, if there is one. -/
def takeReply : Effect (Option String) := do
  let reply ← get Session.reply
  if reply.isSome then modify fun s => { s with reply := none, column := 0 }
  return reply

/-- Assigns the fields of a reply. One that cannot be used is asked for again at `here`, or is a
fault. -/
def useReply (here : Address) (targets : List Target) (reply : String) : Effect Course := do
  let fields := ReplyField.ofReply reply
  match replyValues (targets.map Target.ident) fields with
  | .ok values => do
    assignAll targets values
    if fields.length > targets.length then write "?EXTRA IGNORED\n"
    return .next
  | .error fault => do
    match (← get Session.config).replyPolicy with
    | .askAgain => do
      write "?REDO FROM START\n"
      return .jump here
    | .fail => fail fault

/-- Asks for a reply, or uses the one that has been supplied. -/
def input (here : Address) (prompt : String) (targets : List Target) : Effect Course := do
  match ← takeReply with
  | none => return .ask prompt
  | some reply => useReply here targets reply

/-- The value of a data item for a target. -/
def datumValue (i : Ident) (datum : Datum) : Except Fault Value :=
  match datum with
  | .quoted s =>
    if i.isText then .ok (.string s)
    else .error { code := .typeMismatch, detail := "DATA \"" ++ s ++ "\"" }
  | .unquoted s =>
    if i.isText then .ok (.string s)
    else
      match Number.ofField? s.toList with
      | some x => .ok (.number x)
      | none => .error { code := .typeMismatch, detail := "DATA " ++ s }

/-- Takes the next data item. -/
def takeDatum : Effect Datum := do
  match (← get fun s => s.program.data[s.nextDatum]?) with
  | none => fail { code := .outOfData }
  | some datum => do
    modify fun s => { s with nextDatum := s.nextDatum + 1 }
    return datum

/-- Assigns the next data items to targets in order. -/
def read : List Target → Effect Unit
  | [] => pure ()
  | target :: targets => do
    let datum ← takeDatum
    assign target (← ofExcept (datumValue target.ident datum))
    read targets

/-- Goes back in the data: to their start, or to the first item on or after a line. -/
def restore (line : Option LineNumber) : Effect Unit := do
  match line with
  | none => modify fun s => { s with nextDatum := 0 }
  | some n => do
    let _ ← findLine n
    modify fun s => { s with nextDatum := s.program.dataPosition n }

/-- Forgets all variables, arrays and functions, and goes back to the start of the data. -/
def clear : Effect Unit :=
  modify fun s => { s with memory := Memory.empty, functions := {}, nextDatum := 0 }

/-- Goes on with the next statement after doing something. -/
def andNext (effect : Effect Unit) : Effect Course := do
  effect
  return .next

/-- Performs a command that stands at `here`. -/
def performCommand (here : Address) : Command → Effect Course
  | .clear _ => andNext clear
  | .data .. | .remark _ => return .next
  | .define _ i _ _ =>
    andNext (modify fun s => { s with functions := s.functions.insert i.name here })
  | .dimension _ arrays => andNext (dimension arrays)
  | .finish _ => return .finish
  | .loop _ i first last step => enterLoop here i.name first last step
  | .gosub _ n => gosub here n
  | .goto _ n => goto n
  | .input _ prompt targets => input here prompt targets
  | .assign _ target value => do
    assign target (← evaluate value)
    return .next
  | .next _ i => continueLoop (i.map Ident.name)
  | .onGoto _ selector lines => do
    match ← select selector lines with
    | some n => goto n
    | none => return .next
  | .onGosub _ selector lines => do
    match ← select selector lines with
    | some n => gosub here n
    | none => return .next
  | .print _ items => andNext (print items)
  | .read _ targets => andNext (read targets)
  | .restore _ line => andNext (restore line)
  | .returnBack _ => returnBack
  | .stop _ => return .stop

/-- Performs a statement that stands at `here`. -/
def perform (here : Address) : Statement → Effect Course
  | .run command => performCommand here command
  | .branch _ predicate target => do
    if (← evaluate predicate).isTrue then return .next else return .jump ⟨here.line, target⟩
  | .skip _ target => return .jump ⟨here.line, target⟩

end Session

end NumberedBasic
