import NumberedBasic.Proofs.CheckedReading
import NumberedBasic.Proofs.SessionInvariant

/-!
# Loading and running with every assumption checked

The variants of `Checked` go on here from single lines to whole programs and their runs. A source
line that is refused may be given its place as a detail, and the fault of a statement is placed in
the line where the run stands. Neither overwrites anything: `load_eq` is about all source texts, and
`execute_eq` follows from what one statement does (`turn_eq`) by the invariant of runs. Together
they are `Checked.assumptions_hold`.
-/

set_option autoImplicit false

namespace NumberedBasic.Checked

/-! ## Loading -/

/-- The line a text stands for. -/
def ofText (text : String) : Checked Line := do
  let (number, tokens) ← scanLine (Text.dropLineEnd text.toList)
  return ⟨number, tokens⟩

/-- The statements of a line. -/
def statements (line : Line) : Checked (Except Fault (List Statement)) :=
  match line.firstUnknown? with
  | some (s, column) => do
    return .error (← raise .illegalCharacter (some line.number) (some column) (some s))
  | none => parse line.number line.tokens

/-- Enters a line of source text. -/
def enter (listing : Listing) (text : String) : Checked (Except Fault Unit × Listing) :=
  if text.length > Listing.maxLineLength then do
    return (.error (← raise .syntaxError none none (some "LINE BUFFER OVERFLOW")), listing)
  else do
    let line ← ofText text
    match line.number with
    | none => return (.error (Listing.unnumberedFault line), listing)
    | some _ => return (.ok (), listing.insert line)

/-- The fault of a source line with its place in the source, if it says nothing else. -/
def locate (fault : Fault) (index : Nat) : Checked Fault :=
  if fault.line.isNone && fault.detail.isEmpty then
    withDetail fault ("SOURCE LINE " ++ toString (index + 1))
  else return fault

/-- Enters the physical lines of a source. -/
def enterAll (listing : Listing) (index : Nat) :
    List (List Char) → Checked (Except Fault Listing)
  | [] => return .ok listing
  | text :: rest =>
    if (Text.trim text).isEmpty then enterAll listing (index + 1) rest
    else do
      match ← enter listing (String.ofList text) with
      | (.ok _, listing) => enterAll listing (index + 1) rest
      | (.error fault, _) => return .error (← locate fault index)

/-- Reads numbered lines into a program. -/
def addAll (program : Program) : List (LineNumber × Line) → Checked (Except Fault Program)
  | [] => return .ok program
  | (n, line) :: rest => do
    match ← statements line with
    | .ok statements => addAll (program.addLine n statements) rest
    | .error fault => return .error fault

/-- The program of a source text. -/
def load (source : String) : Checked (Except Fault Program) := do
  match ← enterAll Listing.empty 0 (Text.lines source.toList) with
  | .ok listing => addAll Program.empty listing.toList
  | .error fault => return .error fault

/-- No check stops the reading of a line of text. -/
theorem ofText_eq (text : String) : ofText text = .ok (Line.ofText text) :=
  bind_of_eq_ok (scanLine_eq _)

/-- No check stops the parsing of a line. -/
theorem statements_eq (line : Line) : statements line = .ok line.statements := by
  unfold statements Line.statements
  cases line.firstUnknown? with
  | some unknown => exact bind_of_eq_ok (raise_eq ..)
  | none => exact parse_eq _ _

/-- No check stops a line from being entered. -/
theorem enter_eq (listing : Listing) (text : String) :
    enter listing text = .ok (listing.enter text) := by
  unfold enter Listing.enter
  split
  · exact bind_of_eq_ok (raise_eq ..)
  · refine (bind_of_eq_ok (ofText_eq text)).trans ?_
    dsimp only
    cases (Line.ofText text).number <;> rfl

/-- Only a fault without a detail is given one. -/
theorem locate_eq (fault : Fault) (index : Nat) :
    locate fault index = .ok (Listing.locate fault index) := by
  unfold locate Listing.locate
  split
  next bare => exact withDetail_eq_ok.mpr (Bool.and_eq_true_iff.mp bare).2
  next => rfl

/-- No check stops lines from being entered one after the other. -/
theorem enterAll_eq (listing : Listing) (index : Nat) (texts : List (List Char)) :
    enterAll listing index texts = .ok (listing.enterAll index texts) := by
  induction texts generalizing listing index with
  | nil => rfl
  | cons text rest ih =>
      unfold enterAll Listing.enterAll
      split
      · exact ih _ _
      · refine (bind_of_eq_ok (enter_eq _ _)).trans ?_
        rcases listing.enter (String.ofList text) with ⟨fault | _, entered⟩
        · exact bind_of_eq_ok (locate_eq fault index)
        · exact ih _ _

/-- No check stops lines from being added to a program. -/
theorem addAll_eq (program : Program) (lines : List (LineNumber × Line)) :
    addAll program lines = .ok (program.addAll lines) := by
  induction lines generalizing program with
  | nil => rfl
  | cons numbered rest ih =>
      unfold addAll Program.addAll
      refine (bind_of_eq_ok (statements_eq numbered.2)).trans ?_
      cases numbered.2.statements with
      | ok statements => exact ih _
      | error fault => rfl

/-- Nothing that loading relies on fails to hold, whatever the source text is. -/
theorem load_eq (source : String) : load source = .ok (Program.load source) := by
  refine (bind_of_eq_ok (enterAll_eq _ _ _)).trans ?_
  unfold Program.load Listing.load
  cases Listing.empty.enterAll 0 (Text.lines source.toList) with
  | ok listing => exact addAll_eq _ _
  | error fault => rfl

/-! ## Running -/

/-- Goes on as the result of a statement says. -/
def follow : Except Fault Course → Session → Checked (Option Event × Session)
  | .error fault, s => do return s.stop (.failed (← inLine fault s.line?))
  | .ok course, s => return Session.follow (.ok course) s

/-- One statement of a run that has not ended. -/
def turn (s : Session) : Checked (Option Event × Session) :=
  if s.interrupted then return s.turn
  else
    let (result, s) := Session.step s
    follow result s

/-- At most `cycles` statements of a run that has not ended. -/
def cycle : Nat → Session → Checked (Event × Session)
  | 0, s => return (.running, s)
  | cycles + 1, s => do
    match ← turn s with
    | (some event, s) => return (event, s)
    | (none, s) => cycle cycles s

/-- Runs at most `cycles` statements. -/
def execute (cycles : Nat) (s : Session) : Checked (Event × Session) :=
  match s.deliver with
  | (some event, s) => return (event, s)
  | (none, s) =>
    match s.outcome with
    | some outcome => return (.stopped outcome, s)
    | none => cycle cycles s

section Run

variable {program : Program} {config : Config} {s : Session}

/-- What a statement has led to is followed without a check that fails, because its fault is not
placed in a line yet. -/
theorem follow_eq {result : Except Fault Course} (s : Session)
    (isOpen : ∀ fault, result = .error fault → fault.line = none) :
    follow result s = .ok (Session.follow result s) := by
  cases result with
  | error fault => exact bind_of_eq_ok (inLine_eq_ok.mpr (isOpen fault rfl))
  | ok course => rfl

/-- The fault of a statement has no line before it is placed in one. -/
theorem turn_eq (formed : program.Formed) (standing : Session.Standing program config s) :
    turn s = .ok s.turn := by
  by_cases interrupted : s.interrupted
  · rw [turn, if_pos interrupted]
    rfl
  · have follows {result : Except Fault Course} {t : Session}
        (done : Session.step s = (result, t))
        (isOpen : ∀ fault, result = .error fault → fault.line = none) : turn s = .ok s.turn := by
      rw [turn, if_neg interrupted, done, Session.turn_of_step interrupted done]
      exact follow_eq t isOpen
    rcases Session.step_cases formed standing with
      ended | ⟨prompt, t, asked, -⟩ | ⟨result, t, done, -, settled, -⟩
    · exact follows ended nofun
    · exact follows asked nofun
    · refine follows done fun fault failed => ?_
      rw [failed] at settled
      exact (Fault.ordinary_iff.mp settled).2.1

/-- No check stops a session that stands in its program, whatever its budget. -/
theorem cycle_eq (formed : program.Formed) (standing : Session.Standing program config s)
    (cycles : Nat) : cycle cycles s = .ok (s.cycle cycles) := by
  induction cycles generalizing s with
  | zero => rfl
  | succ cycles ih =>
      unfold cycle Session.cycle
      refine (bind_of_eq_ok (turn_eq formed standing)).trans ?_
      have kept := standing.turn formed
      rcases turned : s.turn with ⟨_ | event, t⟩
      · rw [turned] at kept
        exact ih kept
      · rfl

/-- No check stops a session that can be reached. -/
theorem execute_eq (reachable : Session.Reachable s) (cycles : Nat) :
    execute cycles s = .ok (s.execute cycles) := by
  obtain ⟨program, config, formed, standing⟩ := reachable.standing
  have kept := standing.deliver
  unfold execute Session.execute
  rcases delivered : s.deliver with ⟨_ | event, t⟩
  · rw [delivered] at kept
    dsimp only
    cases t.outcome with
    | some outcome => rfl
    | none => exact cycle_eq formed kept cycles
  · rfl

end Run

/-- Nothing that the interpreter relies on fails to hold. A fault that is raised has room for what
is known of it, no operand is extended by `NOT`, and loading any source text and running any session
of a program that loads come to what they come to without the checks. -/
theorem assumptions_hold :
    (∀ code line column detail, raise code line column detail =
      .ok { code, line := line.getD none, column := column.getD Span.none,
            detail := detail.getD "" }) ∧
    (∀ depth level left cursor,
      operators depth level left cursor = .ok (Reader.operators depth level left cursor)) ∧
    (∀ source, load source = .ok (Program.load source)) ∧
    ∀ s, Session.Reachable s → ∀ cycles, execute cycles s = .ok (s.execute cycles) :=
  ⟨raise_eq, operators_eq, load_eq, fun _ reachable => execute_eq reachable⟩

/-- A line with a `NOT`, an `IF` and an `ELSE` is loaded, and its fault placed in it, with all the
checks. -/
theorem assumptions_hold_mismatch :
    ∃ program s fault,
      load "10 IF NOT A$ THEN PRINT A$ ELSE 10" = .ok (.ok program) ∧
      Session.Reachable s ∧ s.program = program ∧ execute 1 s = .ok (s.execute 1) ∧
      (s.execute 1).1 = .stopped (.failed fault) ∧ fault.line = some 10 := by
  let test (s : Session) : Bool :=
    match (s.execute 1).1 with
    | .stopped (.failed fault) => fault.line == some 10
    | _ => false
  obtain ⟨s, loaded, tested⟩ : ∃ s,
      Session.load "10 IF NOT A$ THEN PRINT A$ ELSE 10" { seed := 0 } ⟨2000, 1, 1, 0, 0, 0⟩ =
        .ok s ∧ test s = true :=
    Session.exists_ok_of_any (by decide +kernel)
  obtain ⟨program, read, same⟩ := exists_of_bind_eq_ok loaded
  cases same
  obtain ⟨-, -, loads, runs⟩ := assumptions_hold
  have reachable := Session.Reachable.load loaded
  simp only [test] at tested
  split at tested
  next fault stopped =>
    exact ⟨program, _, fault, (loads _).trans (congrArg _ read), reachable, rfl, runs _ reachable 1,
      stopped, beq_iff_eq.mp tested⟩
  next => cases tested

end NumberedBasic.Checked
