import NumberedBasic.Session.Perform

/-!
# Running a session

A session is run a number of statements at a time. `Session.turn` is one statement together with
what the host is told after it, and `Session.execute` repeats it until there is something to tell.
Text that has been written is always delivered before anything else.
-/

set_option autoImplicit false

namespace NumberedBasic.Session

open Effect

/-- Moves to the next statement and performs it. After the last one the program ends. -/
def step : Effect Course := do
  match (← get fun s => s.program.statement? s.place) with
  | none => return .finish
  | some (here, statement) => do
    modify fun s => { s with place := here }
    perform here statement

/-- Delivers the text that has been written, if there is any. -/
def deliver (s : Session) : Option Event × Session :=
  if s.output.isEmpty then (none, s) else (some (.print s.output), { s with output := "" })

/-- The session at the end of its run, with all loops and subroutines left. -/
def close (outcome : Outcome) (s : Session) : Session :=
  { s with
    returns := s.returns.clear
    loops := s.loops.clear
    outcome := some outcome }

/-- Ends the run. Text that has been written is delivered first. -/
def finish (outcome : Outcome) (s : Session) : Event × Session :=
  match (s.close outcome).deliver with
  | (some event, s) => (event, s)
  | (none, s) => (.stopped outcome, s)

/-- Ends the run with an event. -/
def stop (outcome : Outcome) (s : Session) : Option Event × Session :=
  let (event, s) := s.finish outcome
  (some event, s)

/-- Goes on as the result of a statement says. -/
def follow : Except Fault Course → Session → Option Event × Session
  | .ok .next, s => deliver { s with place := s.place.next }
  | .ok (.jump target), s => deliver { s with place := target }
  | .ok (.ask prompt), s => (some (.input prompt), s)
  | .ok .finish, s => stop .ended s
  | .ok .stop, s => stop (.broken s.line?) s
  | .error fault, s => stop (.failed (fault.inLine s.line?)) s

/-- One statement of a run that has not ended, and the event it leads to, if any. -/
def turn (s : Session) : Option Event × Session :=
  if s.interrupted then stop (.broken s.line?) { s with interrupted := false }
  else
    let (result, s) := step s
    follow result s

/-- At most `cycles` statements of a run that has not ended. -/
def cycle : Nat → Session → Event × Session
  | 0, s => (.running, s)
  | cycles + 1, s =>
    match s.turn with
    | (some event, s) => (event, s)
    | (none, s) => cycle cycles s

/-- Runs at most `cycles` statements. -/
def execute (cycles : Nat) (s : Session) : Event × Session :=
  match s.deliver with
  | (some event, s) => (event, s)
  | (none, s) =>
    match s.outcome with
    | some outcome => (.stopped outcome, s)
    | none => s.cycle cycles

/-- The statement that the next cycle performs, with the number of its line. There is none while
text waits to be delivered, and none in a run that has ended or is interrupted. -/
def upcoming? (s : Session) : Option (Option LineNumber × Statement) :=
  if s.output.isEmpty && s.outcome.isNone && !s.interrupted then
    (s.program.statement? s.place).map fun (a, statement) =>
      (s.program.lineNumber? a, statement)
  else none

end NumberedBasic.Session
