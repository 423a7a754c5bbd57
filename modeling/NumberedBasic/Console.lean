import NumberedBasic.Trace

/-!
# The command line

Running a program file from a terminal, as a machine that says what the terminal has to do next. The
terminal reads files and lines and shows text; what is read, shown and reported, and with which exit
status, is decided here.
-/

set_option autoImplicit false

namespace NumberedBasic

/-- What the command line asks for. -/
structure Options where
  program : String
  trace : Bool := false
  time : Bool := false
  strictInput : Bool := false
  seed : Option UInt64 := none

namespace Options

/-- The seed a text stands for. -/
def seed? (text : String) : Option UInt64 :=
  let digits := match text.toList with
    | '+' :: rest => rest
    | cs => cs
  let n := Decimal.value digits
  if !digits.isEmpty && digits.all Char.isDigit && n < UInt64.size then some (UInt64.ofNat n)
  else none

/-- The options read so far; the program file may still be missing. -/
structure Partial where
  program : Option String := none
  trace : Bool := false
  time : Bool := false
  strictInput : Bool := false
  seed : Option UInt64 := none

/-- Takes an argument that is no option for the program file. -/
def Partial.positional (options : Partial) (argument : String) : Option Partial :=
  match options.program with
  | some _ => none
  | none => some { options with program := some argument }

/-- Reads arguments; `options` are those before. -/
def parseFrom (options : Partial) : List String → Option Partial
  | [] => some options
  | "--trace" :: rest => parseFrom { options with trace := true } rest
  | "--time" :: rest => parseFrom { options with time := true } rest
  | "--strict-input" :: rest => parseFrom { options with strictInput := true } rest
  | "--seed" :: text :: rest => do parseFrom { options with seed := some (← seed? text) } rest
  | "--" :: rest => rest.foldlM Partial.positional options
  | argument :: rest =>
    match argument.toList with
    | '-' :: '-' :: 's' :: 'e' :: 'e' :: 'd' :: '=' :: text => do
      parseFrom { options with seed := some (← seed? (String.ofList text)) } rest
    | '-' :: _ :: _ => none
    | _ => do parseFrom (← options.positional argument) rest

/-- The options that arguments stand for. -/
def parse (arguments : List String) : Option Options := do
  let options ← parseFrom {} arguments
  let program ← options.program
  return ⟨program, options.trace, options.time, options.strictInput, options.seed⟩

end Options

/-- What a terminal answers when it is asked for a file. -/
inductive FileAnswer where
  | text (source : String)
  | missing
  | unreadable (reason : String)

/-- What the terminal has to do next: read a file or a line, write to its output, write to its
report, report the time the run has taken, nothing, or end with an exit status. -/
inductive Request where
  | openFile (path : String)
  | readLine
  | write (text : String)
  | report (text : String)
  | reportTime
  | proceed
  | exit (status : Nat)
  deriving DecidableEq, Repr

/-- How far a run has come: a file is to be read, a session is open, or all is over. -/
inductive Stage where
  | opening (path : String)
  | running (session : Session)
  | closed (status : Nat)

/-- A command line in progress. Requests in the queue come before all others. -/
structure Console where
  options : Options
  seed : UInt64
  clock : Clock
  queue : List Request
  stage : Stage

namespace Console

/-- A command line at its start. The seed is used when the options give none. -/
def start (options : Options) (seed : UInt64) (clock : Clock) : Console :=
  ⟨options, options.seed.getD seed, clock, [], .opening options.program⟩

/-- A message as it is reported. -/
def message (text : String) : Request :=
  .report ("\x1b[1m?" ++ text ++ "\x1b[0m\n")

/-- The text a run that was broken off is reported with. -/
def breakText (line : Option LineNumber) : String :=
  match line with
  | some n => "BREAK IN " ++ toString n
  | none => "BREAK"

/-- The console with more requests at the end of its queue. -/
def say (console : Console) (requests : List Request) : Console :=
  { console with queue := console.queue ++ requests }

/-- A record of the log, which is kept only when a trace was asked for. -/
def log (console : Console) (record : String) : Console :=
  if console.options.trace then console.say [.report (record ++ "\n")] else console

/-- The console that ends with a message. -/
def giveUp (console : Console) (text : String) : Console :=
  { console.say [message text] with stage := .closed 2 }

/-- The console of a run that has ended. -/
def close (console : Console) (outcome : Outcome) : Console :=
  let console := if console.options.time then console.say [.reportTime] else console
  match outcome with
  | .ended => { console with stage := .closed 0 }
  | .broken line => { console.say [message (breakText line)] with stage := .closed 1 }
  | .failed fault => console.giveUp fault.message

/-- How a session of this command line is set up. -/
def config (console : Console) : Config where
  replyPolicy := if console.options.strictInput then .fail else .askAgain
  seed := console.seed

/-- Opens a session for a source text. -/
def openSource (console : Console) (source : String) : Console :=
  match Program.load source with
  | .error fault => console.giveUp fault.message
  | .ok program =>
    let config := console.config
    let lines := toString program.lines.size ++ " lines, "
    let policy := match config.replyPolicy with
      | .askAgain => "Redo"
      | .fail => "Fail"
    let console := console.log
      ("DEBUG [basic::mach::program] loaded " ++ lines ++ toString program.data.size ++
        " data items")
    let console := console.log
      ("DEBUG [basic::mach::runtime] new session: " ++ lines ++ "input policy " ++ policy ++
        ", stack limit " ++ toString config.stackLimit)
    { console with stage := .running (Session.start program config console.clock) }

/-- What the name of a program file may be left without. -/
def extension : String := ".bas"

/-- Goes on after the file at `path` was asked for. If the file with the given name is missing, the
extension is added to the name. -/
def fileRead (console : Console) (path : String) (answer : FileAnswer) : Console :=
  let given := console.options.program
  match answer with
  | .text source => console.openSource source
  | .missing =>
    if path = given then
      let path := given ++ extension
      let console := console.log
        ("DEBUG [basic::term] " ++ given ++ " not found, trying " ++ Text.escaped path)
      { console with stage := .opening path }
    else console.giveUp ("FILE NOT FOUND; " ++ given)
  | .unreadable reason =>
    if path = given then console.giveUp (reason ++ "; " ++ given)
    else console.giveUp ("FILE NOT FOUND; " ++ given)

/-- Goes on after a line was asked for. The end of the input ends the run. -/
def lineRead (console : Console) (line : Option String) : Console :=
  match console.stage with
  | .running session =>
    match line with
    | some text => { console with stage := .running (session.answer text) }
    | none =>
      (console.say [.write "\n"]).close
        (.failed { code := .inputPastEnd, line := session.line? })
  | _ => console

/-- Sets the clock that the program can ask for the time. -/
def setClock (console : Console) (clock : Clock) : Console :=
  match console.stage with
  | .running session => { console with clock, stage := .running { session with clock } }
  | _ => { console with clock }

/-- How many statements are run before the terminal is looked at again. While every statement is
logged, it is one. -/
def cycles (console : Console) : Nat :=
  if console.options.trace then 1 else 5000

/-- The record of the statement a session performs next. -/
def statementRecord? (session : Session) : Option String :=
  session.upcoming?.map fun (line, statement) =>
    "TRACE [basic::mach::runtime] " ++ toString (line.getD 0) ++ " " ++ Trace.statement statement

/-- Runs a session for a while. -/
def advance (console : Console) (session : Session) : Console :=
  let console := match statementRecord? session with
    | some record => console.log record
    | none => console
  let (event, after) := session.execute console.cycles
  let console := { console with stage := .running after }
  let console := match session.outcome, after.outcome with
    | none, some outcome =>
      console.log ("DEBUG [basic::mach::runtime] session finished: " ++ Trace.outcome outcome)
    | _, _ => console
  match event with
  | .running => console
  | .print text => console.say [.write text]
  | .input prompt => console.say [.write prompt, .readLine]
  | .stopped outcome => console.close outcome

/-- What the terminal has to do next, and the console after that. -/
def next (console : Console) : Request × Console :=
  match console.queue with
  | request :: queue => (request, { console with queue })
  | [] =>
    match console.stage with
    | .opening path => (.openFile path, console)
    | .running session => (.proceed, console.advance session)
    | .closed status => (.exit status, console)

end Console

end NumberedBasic
