import Mathlib.Data.List.Induction
import NumberedBasic.Proofs.EndOfRun
import NumberedBasic.Proofs.LastDefinition
import NumberedBasic.Proofs.ProgramOrder
import NumberedBasic.Proofs.WrittenText

/-!
# Programs that run straight through

A statement is steering if it can send a run elsewhere, end it or make it wait. All other statements
go on with the next one or fail (`result_of_not_steering`). A run of a program without steering
statements comes by all statements in order: what has been performed and what is still ahead are
always the whole program (`Passed`), a cycle takes one statement from the one to the other
(`Passed.turn`), and each call that may run a cycle takes at least one (`countP_le_length_deeds`),
so the run ends. The main statement is `straight_line_in_order`.
-/

set_option autoImplicit false

namespace NumberedBasic

open Session Effect

/-! ## The order of a program -/

/-- Whether a statement can go on elsewhere than with the next one, other than by failing. -/
def Statement.isSteering : Statement → Bool
  | .branch .. | .skip .. => true
  | .run command =>
    match command with
    | .finish _ | .loop .. | .gosub .. | .goto .. | .input .. | .next .. | .onGoto .. | .onGosub ..
    | .returnBack _ | .stop _ => true
    | .clear _ | .data .. | .define .. | .dimension .. | .assign .. | .print .. | .read ..
    | .remark _ | .restore .. => false

namespace Program

/-- No statement of the program is steering. -/
def StraightLine (program : Program) : Prop :=
  ∀ entry ∈ program.statements, entry.2.isSteering = false

/-- One place comes before another: its line has the smaller number, or it is further to the left in
the line with the same number. -/
def Precedes (program : Program) (a b : Address) : Prop :=
  ∃ m n, program.lineNumber? a = some m ∧ program.lineNumber? b = some n ∧
    (m < n ∨ m = n ∧ a.offset < b.offset)

/-- A list has every statement of the program once, in ascending order of line numbers and from left
to right in each line. -/
structure InOrder (program : Program) (entries : List (Address × Statement)) : Prop where
  complete : ∀ a statement,
    (a, statement) ∈ entries ↔ program.statementAt? a = some statement
  ordered : entries.Pairwise fun first second => program.Precedes first.1 second.1

/-- The statements of a program whose lines ascend are in order. -/
theorem inOrder_statements {program : Program} (ascending : Ascending program.lines) :
    program.InOrder program.statements := by
  refine ⟨fun a statement => mem_statements, ?_⟩
  refine (pairwise_statements program).imp_of_mem ?_
  rintro ⟨a, first⟩ ⟨b, second⟩ inFirst inSecond sooner
  obtain ⟨line, lineA, -⟩ := statementAt?_eq_some.mp (mem_statements.mp inFirst)
  obtain ⟨other, lineB, -⟩ := statementAt?_eq_some.mp (mem_statements.mp inSecond)
  refine ⟨line.number, other.number, ?_, ?_, ?_⟩
  · exact congrArg (Option.map ProgramLine.number) lineA
  · exact congrArg (Option.map ProgramLine.number) lineB
  · rcases Address.isBefore_iff.mp sooner with less | ⟨same, left⟩
    · obtain ⟨bound, rfl⟩ := Array.getElem?_eq_some_iff.mp lineB
      obtain ⟨_, rfl⟩ := Array.getElem?_eq_some_iff.mp lineA
      exact .inl (ascending.lt less bound)
    · dsimp only at same
      rw [same, lineB] at lineA
      cases lineA
      exact .inr ⟨rfl, left⟩

end Program

/-! ## One statement -/

namespace Deed

/-- The statement that was performed, with its place. -/
def entry (deed : Deed) : Address × Statement :=
  (deed.place, deed.statement)

end Deed

/-- What comes before the last step can only make it fail. -/
theorem result_bind_pure {α : Type} (x : Effect α) (course : Course) (s : Session) :
    ((x >>= fun _ => pure course) s).1 = .ok course ∨
      ∃ fault, ((x >>= fun _ => pure course) s).1 = .error fault := by
  rcases done : x s with ⟨result, t⟩
  cases result with
  | ok a =>
      rw [bind_of_ok done]
      exact .inl rfl
  | error fault =>
      rw [bind_of_error done]
      exact .inr ⟨fault, rfl⟩

/-- A statement that is not steering goes on with the next one or fails. -/
theorem Deed.result_of_not_steering {deed : Deed} (straight : deed.statement.isSteering = false) :
    deed.result = .ok .next ∨ ∃ fault, deed.result = .error fault := by
  obtain ⟨session, statement⟩ := deed
  cases statement with
  | branch | skip => cases straight
  | run command =>
      cases command with
      | data | remark => exact .inl rfl
      | clear | define | dimension | print | read | restore => exact result_bind_pure _ _ _
      | assign column target value =>
          have whole : result ⟨session, .run (.assign column target value)⟩ =
              (((evaluate value >>= assign target) >>= fun _ => pure Course.next) session).1 := by
            rw [bind_assoc]
            rfl
          rw [whole]
          exact result_bind_pure _ _ _
      | finish | loop | gosub | goto | input | next | onGoto | onGosub | returnBack | stop =>
          cases straight

/-! ## A run -/

/-- How far a run through all statements of a program has come. It goes on, and what was performed
and what is ahead are the whole program; or it has ended after all of it; or it has failed in the
last statement that was performed, and the fault was placed in the line of that statement. All
other statements have gone on with the next one. -/
inductive Passed (program : Program) (deeds : List Deed) (s : Session) : Prop
  | going (goes : s.outcome = none)
      (ahead : deeds.map Deed.entry ++ program.statementsFrom s.place = program.statements)
      (fine : ∀ deed ∈ deeds, deed.result = .ok .next)
  | ended (ends : s.outcome = some .ended) (all : deeds.map Deed.entry = program.statements)
      (fine : ∀ deed ∈ deeds, deed.result = .ok .next)
  | failed {front : List Deed} {deed : Deed} {fault : Fault} (last : deeds = front ++ [deed])
      (part : deeds.map Deed.entry <+: program.statements)
      (fine : ∀ deed ∈ front, deed.result = .ok .next) (fails : deed.result = .error fault)
      (ends : s.outcome = some (.failed (fault.inLine (program.lineNumber? deed.place))))

section Run

variable {program : Program} {config : Config} {deeds : List Deed} {s t : Session}

/-- How far a run has come depends on its place and its outcome alone. -/
theorem Passed.of_same (passed : Passed program deeds s) (place : t.place = s.place)
    (outcome : t.outcome = s.outcome) : Passed program deeds t := by
  cases passed with
  | going goes ahead fine =>
      exact .going (outcome.trans goes) (by rw [place]; exact ahead) fine
  | ended ends all fine => exact .ended (outcome.trans ends) all fine
  | failed last part fine fails ends => exact .failed last part fine fails (outcome.trans ends)

/-- While it goes on, a run has not performed more statements than there are. -/
theorem Passed.length_le (passed : Passed program deeds s) :
    deeds.length ≤ program.statements.length := by
  have part : deeds.map Deed.entry <+: program.statements := by
    cases passed with
    | going _ ahead _ => exact ⟨_, ahead⟩
    | ended _ all _ => exact ⟨[], by rw [List.append_nil, all]⟩
    | failed _ part _ _ _ => exact part
  simpa using part.length_le

/-- One cycle performs the first of the statements ahead. -/
theorem Passed.turn (formed : program.Formed) (straight : program.StraightLine)
    (standing : Standing program config s) (isOpen : s.Open) (quiet : s.interrupted = false)
    (passed : Passed program deeds s) :
    Passed program (deeds ++ s.deed?.toList) s.turn.2 := by
  obtain ⟨ahead, fine⟩ : deeds.map Deed.entry ++ program.statementsFrom s.place =
      program.statements ∧ ∀ deed ∈ deeds, deed.result = .ok .next := by
    cases passed with
    | going _ ahead fine => exact ⟨ahead, fine⟩
    | ended ends _ _ => cases isOpen.2.symm.trans ends
    | failed _ _ _ _ ends => cases isOpen.2.symm.trans ends
  cases performed : s.deed? with
  | none =>
      have nothing : program.statement? s.place = none := by
        rw [← standing.program_eq]
        simpa [deed?, quiet] using performed
      rw [turn_of_no_deed performed, stop_snd]
      rw [Program.statementsFrom_of_none nothing, List.append_nil] at ahead
      refine .ended ?_ ?_ ?_
      · simp [close, ending, quiet]
      · simpa using ahead
      · simpa using fine
  | some deed =>
      have found := (deed?_eq_some.mp performed).2.1
      have sound := Deed.sound_of_deed? standing performed
      have empty := output_of_deed? isOpen performed
      rw [standing.program_eq] at found
      rw [Program.statementsFrom_of_some found] at ahead
      have next : (deeds ++ [deed]).map Deed.entry ++ program.statementsFrom deed.place.next =
          program.statements := by
        simpa [Deed.entry] using ahead
      have numbered : deed.session.line? = program.lineNumber? deed.place := by
        rw [line?, sound.session.program_eq]
        rfl
      have leftOutcome : deed.left.outcome = s.outcome := by
        rw [show deed.left.outcome = deed.session.outcome from
          sound.unchanged formed .outcome (by decide), (deed?_eq_some.mp performed).2.2]
      have notSteering := straight _ (Program.mem_statements.mpr sound.stands)
      rw [turn_of_deed? performed, Option.toList_some]
      -- A statement that does not steer goes on with the next one or fails.
      rcases Deed.result_of_not_steering notSteering with goesOn | ⟨fault, failed⟩
      · rcases sound.follow_cases formed empty with ⟨target, goes, -, same⟩ | ⟨_, nothing, -, -⟩
        · simp only [Deed.goal?, goesOn, Option.some.injEq] at goes
          rw [same, ← goes]
          refine .going (leftOutcome.trans isOpen.2) next fun other inside => ?_
          rcases List.mem_append.mp inside with before | last
          · exact fine other before
          · rw [List.mem_singleton.mp last]
            exact goesOn
        · simp [Deed.goal?, goesOn] at nothing
      · rcases sound.follow_cases formed empty with ⟨target, goes, -, -⟩ | ⟨outcome, -, ends, same⟩
        · simp [Deed.goal?, failed] at goes
        · simp only [Deed.outcome?, failed, Option.some.injEq, numbered] at ends
          rw [same, ← ends]
          exact .failed rfl ⟨_, next⟩ fine failed rfl

/-- A cycle leaves no interrupt. -/
theorem interrupted_turn (formed : program.Formed) (standing : Standing program config s)
    (quiet : s.interrupted = false) : s.turn.2.interrupted = false := by
  cases performed : s.deed? with
  | none => rw [turn_of_no_deed performed, stop_snd, close]
  | some deed =>
      have sound := Deed.sound_of_deed? standing performed
      have follows : (follow deed.result deed.left).2.interrupted = deed.left.interrupted :=
        only_follow deed.result deed.left .interrupted (by decide)
      have left : deed.left.interrupted = deed.session.interrupted :=
        sound.unchanged formed .interrupted (by decide)
      rw [turn_of_deed? performed, follows, left, (deed?_eq_some.mp performed).2.2]
      exact quiet

/-- What holds of a run of a program without steering statements that is not interrupted: it passes
through the program, and each statement leaves its own text in the buffer. -/
structure RunsStraight (program : Program) (history : History) : Prop where
  quiet : history.session.interrupted = false
  passed : Passed program history.deeds history.session
  wrote : ∀ deed ∈ history.deeds, deed.left.output = deed.text

/-- A run without steering statements passes through the program one statement at a time. -/
theorem advancing_runsStraight (formed : program.Formed) (straight : program.StraightLine) :
    Advancing program config (RunsStraight program) where
  turn := by
    intro history standing isOpen runs
    refine ⟨interrupted_turn formed standing runs.quiet,
      runs.passed.turn formed straight standing isOpen runs.quiet, fun deed inside => ?_⟩
    rcases List.mem_append.mp inside with before | last
    · exact runs.wrote deed before
    · have performed := Option.mem_toList.mp last
      have written := (Deed.sound_of_deed? standing performed).output formed
      rw [output_of_deed? isOpen performed, String.empty_append] at written
      exact written
  tell := fun _ runs => ⟨runs.quiet, runs.passed, runs.wrote⟩

/-- Acts other than an interrupt do not disturb a run. -/
theorem RunsStraight.act {history : History} (runs : RunsStraight program history) {act : Act}
    (noRun : act.isExecute = false) (other : act ≠ .interrupt) :
    RunsStraight program (history.act act) := by
  cases act with
  | execute => cases noRun
  | interrupt => exact absurd rfl other
  | answer | setClock => exact ⟨runs.quiet, runs.passed.of_same rfl rfl, runs.wrote⟩

/-- A call that may run a cycle and does not end an open run performs a statement. -/
theorem length_executeDeeds_pos (isOpen : s.Open) {cycles : Nat}
    (goes : (s.execute (cycles + 1)).2.outcome = none) :
    0 < (s.executeDeeds (cycles + 1)).length := by
  have performs : s.executeDeeds (cycles + 1) = s.cycleDeeds (cycles + 1) := by
    simp [executeDeeds, isOpen.1, isOpen.2]
  rw [performs, cycleDeeds]
  cases performed : s.deed? with
  | some deed => simp
  | none =>
      rcases s.execute_cases with ⟨waits, -⟩ | ⟨-, outcome, ended, -⟩ | ⟨-, -, runs⟩
      · exact absurd isOpen.1 waits
      · cases isOpen.2.symm.trans ended
      · -- there is no statement to perform, so the cycle would have ended the run
        have stops : s.turn.2.outcome = some s.ending := by
          rw [turn_of_no_deed performed, stop_snd]
          rfl
        have told : s.turn.1.isSome := by
          rw [turn_of_no_deed performed]
          rfl
        obtain ⟨event, telling⟩ := Option.isSome_iff_exists.mp told
        have whole : s.cycle (cycles + 1) = (event, s.turn.2) := by
          rw [cycle, show s.turn = (some event, s.turn.2) from Prod.ext telling rfl]
        rw [runs, whole, stops] at goes
        cases goes

/-- A run that goes on has performed at least one statement for each call that may run a cycle. -/
theorem countP_le_length_deeds (begins : Begins program config s) (acts : List Act)
    (goes : (s.history.run acts).session.outcome = none) :
    acts.countP (fun act => 0 < act.cycles) ≤ (s.history.run acts).deeds.length := by
  induction acts using List.reverseRecOn with
  | nil => exact Nat.zero_le _
  | append_singleton acts act ih =>
      obtain ⟨-, empty⟩ := standing_run begins acts
      rw [History.run, List.foldl_append] at goes ⊢
      change ((s.history.run acts).act act).session.outcome = none at goes
      change _ ≤ ((s.history.run acts).act act).deeds.length
      rw [List.countP_append, List.countP_singleton]
      cases act with
      | answer | interrupt | setClock => simpa [Act.cycles, History.act] using ih goes
      | execute cycles =>
          have before : (s.history.run acts).session.outcome = none := by
            cases ended : (s.history.run acts).session.outcome with
            | none => rfl
            | some outcome =>
                simp only [History.act, (rests_of_ended empty ended cycles).1, ended] at goes
                cases goes
          have counted := ih before
          cases cycles with
          | zero => simpa [Act.cycles, History.act] using Nat.le_add_right_of_le counted
          | succ cycles =>
              have performed := length_executeDeeds_pos ⟨empty, before⟩ goes
              have counts : 0 < (Act.execute (cycles + 1)).cycles := Nat.succ_pos cycles
              rw [if_pos (decide_eq_true counts), History.act, List.length_append]
              omega

/-- A program without steering statements runs in the order of its lines. Whatever a host does with
it after it has been loaded, other than to interrupt it:

* the statements that were performed are the first ones of the program in the order of line numbers
  and from left to right in each line, each of them performed once; the run has ended only after the
  last one, or with the fault of the first one that fails, after which none is performed (`Passed`);
* the text that was delivered is that of the statements that were performed, in order, where the
  text of each is what it has written, the failing one included;
* the run has ended after as many calls that may run a cycle as there are statements and one more,
  and from then on the host is told how. -/
theorem straight_line_in_order {source : String} {clock : Clock}
    (loaded : Session.load source config clock = .ok s) (straight : s.program.StraightLine)
    (acts : List Act) (undisturbed : Act.interrupt ∉ acts) :
    let history := s.history.run acts
    s.program.InOrder s.program.statements ∧
    Passed s.program history.deeds history.session ∧
    history.delivered = String.join (history.deeds.map Deed.text) ∧
    (∀ deed ∈ history.deeds, deed.left.output = deed.text) ∧
    (s.program.statements.length < acts.countP (fun act => 0 < act.cycles) →
      history.session.outcome ≠ none) ∧
    ∀ outcome, history.session.outcome = some outcome →
      ∀ cycles, history.session.execute cycles = (.stopped outcome, history.session) := by
  intro history
  obtain ⟨program, read, started, begins⟩ := exists_begins loaded
  have same : s.program = program := begins.standing.program_eq
  rw [same] at straight ⊢
  have ascending : Program.Ascending program.lines := by
    obtain ⟨listing, entered, -⟩ := exists_of_bind_eq_ok read
    exact (Program.lines_of_load entered read).2.1
  have first : RunsStraight program s.history := by
    rw [started]
    refine ⟨rfl, .going rfl ?_ (List.forall_mem_nil _), List.forall_mem_nil _⟩
    exact Program.statementsFrom_start program
  have calls : ∀ act ∈ acts, act.isExecute = false → ∀ history : History,
      RunsStraight program history → RunsStraight program (history.act act) :=
    fun act inside noRun _ runs => runs.act noRun fun is => undisturbed (is ▸ inside)
  obtain ⟨-, empty, runs⟩ :=
    (advancing_runsStraight begins.formed straight).run begins first acts calls
  have initial : s.history.delivered ++ s.output = s.history.written := by
    rw [String.isEmpty_iff.mp begins.isOpen.1]
    rfl
  have balanced := ((lasting_text begins.formed).run begins initial acts).2.2
  rw [String.isEmpty_iff.mp empty, String.append_empty] at balanced
  refine ⟨Program.inOrder_statements ascending, runs.passed, balanced, runs.wrote, ?_, ?_⟩
  · intro enough goes
    have counted := countP_le_length_deeds begins acts goes
    have bounded := runs.passed.length_le
    omega
  · exact fun outcome ended cycles => (rests_of_ended empty ended cycles).1

/-- A program whose lines were entered out of order, one of them without statements, is passed
through up to a `PRINT` that fails after its first item, in one cycle at a time. -/
theorem straight_line_in_order_failing :
    let source := "30 PRINT A$;ASC(\"\"):PRINT \"Z\"\n10 :\n20 READ A$:PRINT \"X\";:DATA 7"
    let fault : Fault := { code := .illegalFunctionCall, detail := "ASC", line := some 30 }
    let acts := Act.answer "" :: List.replicate 6 (.execute 1)
    ∃ s, Session.load source { seed := 0 } ⟨2000, 1, 1, 0, 0, 0⟩ = .ok s ∧
      s.program.numbers = [10, 20, 30] ∧ s.program.InOrder s.program.statements ∧
      s.program.statements.map Prod.fst = [⟨1, 0⟩, ⟨1, 1⟩, ⟨1, 2⟩, ⟨2, 0⟩, ⟨2, 1⟩] ∧
      Passed s.program (s.history.run acts).deeds (s.history.run acts).session ∧
      (s.history.run acts).deeds.map Deed.place = [⟨1, 0⟩, ⟨1, 1⟩, ⟨1, 2⟩, ⟨2, 0⟩] ∧
      String.join ((s.history.run acts).deeds.map Deed.text) = "X7" ∧
      ((s.history.run acts).session.execute 1).1 = .stopped (.failed fault) := by
  intro source fault acts
  let test (s : Session) : Bool :=
    let history := s.history.run acts
    s.program.numbers == [10, 20, 30] && s.program.statements.all (!·.2.isSteering) &&
      s.program.statements.map Prod.fst == [⟨1, 0⟩, ⟨1, 1⟩, ⟨1, 2⟩, ⟨2, 0⟩, ⟨2, 1⟩] &&
      history.deeds.map Deed.place == [⟨1, 0⟩, ⟨1, 1⟩, ⟨1, 2⟩, ⟨2, 0⟩] &&
      history.delivered == "X7" && history.session.outcome == some (.failed fault)
  obtain ⟨s, loaded, tested⟩ : ∃ s,
      Session.load source { seed := 0 } ⟨2000, 1, 1, 0, 0, 0⟩ = .ok s ∧ test s = true :=
    exists_ok_of_any (by decide +kernel)
  simp only [test, Bool.and_eq_true, beq_iff_eq] at tested
  obtain ⟨⟨⟨⟨⟨numbers, noSteering⟩, places⟩, performed⟩, delivered⟩, outcome⟩ := tested
  have straight : s.program.StraightLine := by
    intro entry inside
    simpa using List.all_eq_true.mp noSteering entry inside
  have undisturbed : Act.interrupt ∉ acts := by simp [acts]
  obtain ⟨inOrder, passed, text, -, -, told⟩ :=
    straight_line_in_order loaded straight acts undisturbed
  refine ⟨s, loaded, numbers, inOrder, places, passed, performed, text.symm.trans delivered, ?_⟩
  rw [told _ outcome 1]

end Run

end NumberedBasic
