import NumberedBasic.Console
import Std.Time

/-!
# The program

Runs a program file in the terminal.
-/

set_option autoImplicit false

namespace NumberedBasic.Terminal

/-- The date and the time of day. -/
def now : IO Clock := do
  let time ← Std.Time.DateTime.now
  return {
    year := time.year.toInt.toNat
    month := time.month.val.toNat
    day := time.day.val.toNat
    hour := time.hour.val.toNat
    minute := time.minute.val.toNat
    second := time.second.val.toNat }

/-- A file as the console asks for it. -/
def readFile (path : String) : IO FileAnswer := do
  try
    return .text (← IO.FS.readFile path)
  catch error =>
    match error with
    | .noFileOrDirectory .. => return .missing
    | error => return .unreadable (toString error)

/-- A time in milliseconds, written in seconds. -/
def seconds (milliseconds : Nat) : String :=
  toString (milliseconds / 1000) ++ "." ++ Clock.padded 3 (milliseconds % 1000) ++ "s\n"

/-- Does what the console asks for until it ends. -/
partial def serve (started : Nat) (console : Console) : IO UInt32 := do
  let stdout ← IO.getStdout
  let stderr ← IO.getStderr
  let (request, console) := console.next
  match request with
  | .exit status => return status.toUInt32
  | .proceed => serve started (console.setClock (← now))
  | .write text =>
    stdout.putStr text
    serve started console
  | .report text =>
    stdout.flush
    stderr.putStr text
    serve started console
  | .reportTime =>
    stderr.putStr (seconds ((← IO.monoMsNow) - started))
    serve started console
  | .openFile path => serve started (console.fileRead path (← readFile path))
  | .readLine =>
    stdout.flush
    let line ← (← IO.getStdin).getLine
    serve started (console.lineRead (if line.isEmpty then none else some line))

end NumberedBasic.Terminal

open NumberedBasic in
/-- Runs the program file that the command line names. -/
def main (arguments : List String) : IO UInt32 := do
  match Options.parse arguments with
  | some options =>
    let seed ← IO.rand 0 (UInt64.size - 1)
    Terminal.serve (← IO.monoMsNow) (Console.start options (UInt64.ofNat seed) (← Terminal.now))
  | none =>
    IO.eprintln "usage: basic <PROGRAM> [--trace] [--time] [--strict-input] [--seed N]"
    return 2
