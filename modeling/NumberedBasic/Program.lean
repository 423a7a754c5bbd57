import NumberedBasic.Listing

/-!
# Programs

A listing whose lines have been read into statements. A place in a program is a line, counted from
zero, and an offset into its statements. The data items of all lines are gathered in one sequence,
with an index of where the items of each `DATA` start.
-/

set_option autoImplicit false

namespace NumberedBasic

/-- A place in a program. -/
structure Address where
  line : Nat
  offset : Nat
  deriving DecidableEq, Repr

namespace Address

/-- The start of a program. -/
def start : Address := ⟨0, 0⟩

/-- The place right after another one in its line. -/
def next (a : Address) : Address :=
  ⟨a.line, a.offset + 1⟩

end Address

/-- A line of a program. -/
structure ProgramLine where
  number : LineNumber
  statements : Array Statement

/-- A program that can be run. -/
structure Program where
  lines : Array ProgramLine
  data : Array Datum
  dataStarts : Array (LineNumber × Nat)

namespace Program

/-- The program without lines. -/
def empty : Program := ⟨#[], #[], #[]⟩

/-- Notes the data items of a statement on line `n`. -/
def addData (n : LineNumber) (program : Program) : Statement → Program
  | .run (.data _ items) =>
    { program with
      data := program.data ++ items
      dataStarts := program.dataStarts.push (n, program.data.size) }
  | _ => program

/-- The program with one more line at its end. -/
def addLine (program : Program) (n : LineNumber) (statements : List Statement) : Program :=
  let program := statements.foldl (addData n) program
  { program with lines := program.lines.push ⟨n, statements.toArray⟩ }

/-- Reads numbered lines into a program. The first one that cannot be read is at fault. -/
def addAll (program : Program) : List (LineNumber × Line) → Except Fault Program
  | [] => .ok program
  | (n, line) :: rest =>
    match line.statements with
    | .ok statements => (program.addLine n statements).addAll rest
    | .error fault => .error fault

/-- The program of a listing. -/
def ofListing (listing : Listing) : Except Fault Program :=
  empty.addAll listing.toList

/-- The program of a source text. -/
def load (source : String) : Except Fault Program := do
  ofListing (← Listing.load source)

/-- The line numbers, in order. -/
def numbers (program : Program) : List LineNumber :=
  program.lines.toList.map ProgramLine.number

/-- The statement at a place, and the place itself. An offset past the end of its line stands for
the first statement after it. -/
def statement? (program : Program) (a : Address) : Option (Address × Statement) :=
  if h : a.line < program.lines.size then
    match program.lines[a.line].statements[a.offset]? with
    | some statement => some (a, statement)
    | none => program.statement? ⟨a.line + 1, 0⟩
  else none
termination_by program.lines.size - a.line

/-- How many places there are in lines, the end of each one included. -/
def places : List ProgramLine → Nat
  | [] => 0
  | line :: rest => line.statements.size + 1 + places rest

/-- How many places of a program are still to come at a place. -/
def remaining (program : Program) (a : Address) : Nat :=
  match program.lines.toList.drop a.line with
  | [] => 0
  | line :: rest => line.statements.size + 1 - a.offset + places rest

/-- In a line of the program the rest of it and the lines after it are to come. -/
theorem remaining_eq (program : Program) (a : Address) (inside : a.line < program.lines.size) :
    program.remaining a = program.lines[a.line].statements.size + 1 - a.offset +
      places (program.lines.toList.drop (a.line + 1)) := by
  unfold remaining
  rw [List.drop_eq_getElem_cons (by simpa using inside)]
  rfl

/-- From the start of a line on, what remains is all of that line and of the ones after it. -/
theorem remaining_start (program : Program) (i : Nat) :
    program.remaining ⟨i, 0⟩ = places (program.lines.toList.drop i) := by
  unfold remaining
  dsimp only
  cases program.lines.toList.drop i <;> rfl

/-- Behind a statement that is found, less of the program is to come. -/
theorem remaining_next_lt (program : Program) {a b : Address} {statement : Statement}
    (found : program.statement? a = some (b, statement)) :
    program.remaining b.next < program.remaining a := by
  fun_induction statement? program a with
  | case1 a inside statement stands =>
    cases found
    have short := (Array.getElem?_eq_some_iff.mp stands).1
    rw [program.remaining_eq b inside, program.remaining_eq b.next inside]
    simp only [Address.next]
    omega
  | case2 a inside outside ih =>
    have later := ih found
    rw [remaining_start] at later
    rw [program.remaining_eq a inside]
    omega
  | case3 => cases found

/-- The index of the line with number `n` among those from `low` up to but not including `high`,
which are in ascending order: the one in the middle, or one in the half that `n` belongs to. -/
def search (lines : Array ProgramLine) (n : LineNumber) (low high : Nat) : Option Nat :=
  if h : low < high ∧ high ≤ lines.size then
    let middle := low + (high - low) / 2
    have bound : middle < lines.size := by omega
    let found := lines[middle].number
    if found = n then some middle
    else if found < n then search lines n (middle + 1) high
    else search lines n low middle
  else none
termination_by high - low

/-- The place where the line with a number starts. -/
def findLine? (program : Program) (n : LineNumber) : Option Address :=
  (search program.lines n 0 program.lines.size).map fun i => ⟨i, 0⟩

/-- The number of the line a place is in. -/
def lineNumber? (program : Program) (a : Address) : Option LineNumber :=
  program.lines[a.line]?.map ProgramLine.number

/-- How many data items stand before the line with number `n`. -/
def dataPosition (program : Program) (n : LineNumber) : Nat :=
  match program.dataStarts.find? fun start => n ≤ start.1 with
  | some start => start.2
  | none => program.data.size

end Program

end NumberedBasic
