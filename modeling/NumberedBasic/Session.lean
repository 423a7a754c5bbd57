import NumberedBasic.BoundedStack
import NumberedBasic.Builtin
import NumberedBasic.Memory
import NumberedBasic.Program

/-!
# Sessions

All there is to one run of one program: the program, how it was set up, where it stands, and what it
has stored, opened and written. `Effect` is the type of what the statements do to a session.
-/

set_option autoImplicit false

namespace NumberedBasic

/-- What `INPUT` does with a reply it cannot use. -/
inductive ReplyPolicy where
  | askAgain
  | fail
  deriving DecidableEq, Repr

/-- How a session is set up: what to do with bad replies, the greatest depth of the two control
stacks, the width of the zones that a comma in `PRINT` goes on to, and the seed of the random
numbers. -/
structure Config where
  replyPolicy : ReplyPolicy := .askAgain
  stackLimit : Nat := 65535
  printZone : Nat := 14
  seed : UInt64

/-- A loop that has been entered: its variable, its limit and step, and where its body starts. -/
structure Loop where
  name : Name
  limit : Float
  step : Float
  body : Address
  deriving DecidableEq

/-- How a run has ended: at its end, by `STOP` or an interrupt, or with a fault. -/
inductive Outcome where
  | ended
  | broken (line : Option LineNumber)
  | failed (fault : Fault)
  deriving DecidableEq, Repr

/-- What the host has to do next: call again, show a text, show a prompt and supply a reply, or
nothing more. -/
inductive Event where
  | running
  | print (text : String)
  | input (prompt : String)
  | stopped (outcome : Outcome)
  deriving DecidableEq, Repr

/-- The state of a run. A function that has been defined is the place of its definition, and
`callDepth` counts the calls of such functions that are being evaluated. -/
@[ext]
structure Session where
  program : Program
  config : Config
  clock : Clock
  place : Address
  memory : Memory
  functions : Std.TreeMap Name Address
  callDepth : Nat
  returns : BoundedStack Address
  loops : BoundedStack Loop
  dice : Dice
  nextDatum : Nat
  column : Nat
  output : String
  reply : Option String
  interrupted : Bool
  outcome : Option Outcome

namespace Session

/-- A session at the start of a program. -/
def start (program : Program) (config : Config) (clock : Clock) : Session where
  program
  config
  clock
  place := Address.start
  memory := Memory.empty
  functions := {}
  callDepth := 0
  returns := BoundedStack.empty config.stackLimit "GOSUB STACK OVERFLOW"
  loops := BoundedStack.empty config.stackLimit "FOR STACK OVERFLOW"
  dice := Dice.ofSeed config.seed 0.0
  nextDatum := 0
  column := 0
  output := ""
  reply := none
  interrupted := false
  outcome := none

/-- A session at the start of the program of a source text. -/
def load (source : String) (config : Config) (clock : Clock) : Except Fault Session := do
  return start (← Program.load source) config clock

/-- The number of the line the session stands in. -/
def line? (s : Session) : Option LineNumber :=
  s.program.lineNumber? s.place

/-- The value of a variable, whose name may be given in either case. -/
def valueOf (s : Session) (name : String) : Value :=
  s.memory.fetch (String.ofList (name.toList.map Char.toUpper))

/-- Supplies the reply that `INPUT` waits for. -/
def answer (s : Session) (reply : String) : Session :=
  { s with reply := some (String.ofList (Text.dropLineEnd reply.toList)) }

/-- Asks for the run to be stopped before its next statement. -/
def interrupt (s : Session) : Session :=
  { s with interrupted := true }

end Session

/-- Something that is done in a session. It yields a value or fails, and what it has changed before
it failed stays changed. -/
def Effect (α : Type) : Type :=
  Session → Except Fault α × Session

namespace Effect

variable {α β : Type}

instance : Monad Effect where
  pure a := fun s => (.ok a, s)
  bind x f := fun s =>
    match x s with
    | (.ok a, s) => f a s
    | (.error fault, s) => (.error fault, s)

/-- Fails. -/
def fail (fault : Fault) : Effect α :=
  fun s => (.error fault, s)

/-- Yields a result that does not depend on the session. -/
def ofExcept (result : Except Fault α) : Effect α :=
  fun s => (result, s)

/-- Yields something of the session. -/
def get (f : Session → α) : Effect α :=
  fun s => (.ok (f s), s)

/-- Changes the session. -/
def modify (f : Session → Session) : Effect Unit :=
  fun s => (.ok (), f s)

/-- Does something and yields how it went, without failing. -/
def attempt (x : Effect α) : Effect (Except Fault α) :=
  fun s =>
    let (result, s) := x s
    (.ok result, s)

end Effect

end NumberedBasic
