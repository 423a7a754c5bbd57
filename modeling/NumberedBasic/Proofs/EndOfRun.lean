import NumberedBasic.Proofs.RunHistory

/-!
# The end of a run

A run that has ended stays as it is: whatever the host does, it is told each time that the run has
stopped, and no statement is performed any more (`run_of_ended`). The stacks are empty then
(`Account.closed`). If the run has failed, its last statement did, and the fault that is reported is
the one of that statement, placed in the line the statement stands in (`Account.failed`).

An interrupt lasts until a statement would be performed (`run_of_interrupted`), and that statement
is not performed. The main statement is `end_is_final`.
-/

set_option autoImplicit false

namespace NumberedBasic

open Session Effect

/-! ## Acts that change nothing -/

/-- How many cycles an act may run the session for. -/
def Act.cycles : Act → Nat
  | .execute cycles => cycles
  | .answer _ | .interrupt | .setClock _ => 0

namespace Session

variable {s t : Session}

/-- Running a session for a number of cycles tells of an event, performs no statement and changes
nothing. -/
def Rests (event : Event) (cycles : Nat) (s : Session) : Prop :=
  s.execute cycles = (event, s) ∧ s.executeDeeds cycles = []

/-- A run that has ended rests. -/
theorem rests_of_ended (empty : s.output.isEmpty) {outcome : Outcome}
    (ended : s.outcome = some outcome) (cycles : Nat) : s.Rests (.stopped outcome) cycles := by
  refine ⟨?_, by simp [executeDeeds, ended]⟩
  rcases s.execute_cases with ⟨waits, -⟩ | ⟨-, other, same, stopped⟩ | ⟨-, going, -⟩
  · exact absurd empty waits
  · cases ended.symm.trans same
    exact stopped cycles
  · cases ended.symm.trans going

/-- Nothing happens in no cycles. -/
theorem rests_of_open (isOpen : s.Open) : s.Rests .running 0 := by
  refine ⟨?_, by simp [executeDeeds, cycleDeeds]⟩
  rcases s.execute_cases with ⟨waits, -⟩ | ⟨-, other, ended, -⟩ | ⟨-, -, runs⟩
  · exact absurd isOpen.1 waits
  · cases isOpen.2.symm.trans ended
  · exact runs 0

/-- A run that is interrupted ends before its next statement. -/
theorem execute_of_interrupted (isOpen : s.Open) (interrupted : s.interrupted = true)
    (cycles : Nat) :
    s.execute (cycles + 1) =
        (.stopped (.broken s.line?), { s with interrupted := false }.close (.broken s.line?)) ∧
      s.executeDeeds (cycles + 1) = [] := by
  have turned : s.turn =
      (some (.stopped (.broken s.line?)),
        { s with interrupted := false }.close (.broken s.line?)) := by
    simp [turn, interrupted, stop, finish, deliver, close, isOpen.1]
  have nothing : s.deed? = none := if_pos interrupted
  rcases s.execute_cases with ⟨waits, -⟩ | ⟨-, other, ended, -⟩ | ⟨-, -, runs⟩
  · exact absurd isOpen.1 waits
  · cases isOpen.2.symm.trans ended
  · refine ⟨?_, ?_⟩
    · rw [runs]
      simp only [cycle, turned]
    · simp [executeDeeds, cycleDeeds, turned, nothing]

end Session

/-- Acts under which a session rests change what the host may change, and the host is told the same
event each time it runs the session. -/
theorem run_of_rests {history : History} {event : Event} {acts : List Act}
    (rests : ∀ cycles, Act.execute cycles ∈ acts → ∀ t, Only callerParts history.session t →
      t.Rests event cycles) :
    ∃ t, Only callerParts history.session t ∧ (history.session.interrupted → t.interrupted) ∧
      history.run acts =
        ⟨t, history.deeds,
          history.events ++ List.replicate (acts.countP Act.isExecute) event⟩ := by
  induction acts generalizing history with
  | nil =>
      refine ⟨history.session, Std.Refl.refl _, id, ?_⟩
      rw [List.countP_nil, List.replicate_zero, List.append_nil]
      rfl
  | cons act acts ih =>
      -- the first act, which may be a run of the session or not
      obtain ⟨t, only, lasts, acted⟩ : ∃ t, Only callerParts history.session t ∧
          (history.session.interrupted → t.interrupted) ∧
          history.act act =
            ⟨t, history.deeds,
              history.events ++ List.replicate (if act.isExecute then 1 else 0) event⟩ := by
        cases runs : act.isExecute with
        | false =>
            obtain ⟨t, acted, only, lasts⟩ := history.exists_of_act runs
            refine ⟨t, only, lasts, ?_⟩
            rw [acted, if_neg Bool.false_ne_true, List.replicate_zero, List.append_nil]
        | true =>
            obtain ⟨cycles, rfl⟩ := Act.exists_of_isExecute runs
            obtain ⟨executed, deeds⟩ :=
              rests cycles List.mem_cons_self history.session (Std.Refl.refl _)
            refine ⟨history.session, Std.Refl.refl _, id, ?_⟩
            simp only [History.act, executed, deeds, List.append_nil]
            rfl
      have rests' : ∀ cycles, Act.execute cycles ∈ acts → ∀ u, Only callerParts t u →
          u.Rests event cycles := fun cycles inside u onward =>
        rests cycles (List.mem_cons_of_mem _ inside) u (IsTrans.trans _ _ _ only onward)
      show ∃ u, _ ∧ _ ∧ (history.act act).run acts = _
      rw [acted]
      obtain ⟨u, onward, lasts', whole⟩ := @ih ⟨t, _, _⟩ rests'
      refine ⟨u, IsTrans.trans _ _ _ only onward, lasts' ∘ lasts, ?_⟩
      rw [whole, List.append_assoc, List.replicate_append_replicate, List.countP_cons,
        Nat.add_comm]

/-! ## How a run has ended -/

section Account

variable {program : Program} {config : Config} {start s : Session} {deeds : List Deed}

/-- At the end of a run all loops and subroutines have been left. -/
theorem Account.closed (begins : Begins program config start) (account : Account start deeds s)
    (ended : s.outcome ≠ none) : s.returns.toList = [] ∧ s.loops.toList = [] := by
  cases account with
  | going leads => exact absurd (leads.standing begins).2.2 ended
  | halted leads nothing only =>
      have returns : s.returns = BoundedStack.clear _ := only .returns (by decide)
      have loops : s.loops = BoundedStack.clear _ := only .loops (by decide)
      rw [returns, loops]
      exact ⟨rfl, rfl⟩
  | ended leads performed ends only =>
      have returns : s.returns = BoundedStack.clear _ := only .returns (by decide)
      have loops : s.loops = BoundedStack.clear _ := only .loops (by decide)
      rw [returns, loops]
      exact ⟨rfl, rfl⟩

/-- A run that has failed did so in its last statement. The fault is that of the statement, placed
in the line that the statement stands in. -/
theorem Account.failed (begins : Begins program config start) (account : Account start deeds s)
    {fault : Fault} (failed : s.outcome = some (.failed fault)) :
    ∃ front deed raw line, deeds = front ++ [deed] ∧ deed.result = .error raw ∧
      program.lines[deed.place.line]? = some line ∧
      line.statements[deed.place.offset]? = some deed.statement ∧
      fault = { code := raw.code, detail := raw.detail, line := some line.number } := by
  cases account with
  | going leads =>
      have isOpen := (leads.standing begins).2.2
      cases failed.symm.trans isOpen
  | @halted _ before _ leads nothing only =>
      have same : s.outcome = some before.ending := only .outcome (by decide)
      rw [failed] at same
      unfold ending at same
      split at same <;> cases same
  | @ended front deed outcome before _ leads performed ends only =>
      have same : s.outcome = some outcome := only .outcome (by decide)
      cases failed.symm.trans same
      have sound := Deed.sound_of_deed? (leads.standing begins).1 performed
      obtain ⟨line, stands, inside⟩ := Program.statementAt?_eq_some.mp sound.stands
      have numbered : deed.session.line? = some line.number := by
        rw [line?, sound.session.program_eq]
        exact congrArg (Option.map ProgramLine.number) stands
      unfold Deed.outcome? at ends
      cases result : deed.result with
      | ok course =>
          rw [result] at ends
          cases course <;> cases ends
      | error raw =>
          obtain ⟨-, -, column⟩ := Fault.ordinary_iff.mp (sound.ordinary begins.formed result)
          rw [result] at ends
          cases ends
          refine ⟨front, deed, raw, line, rfl, result, stands, inside, ?_⟩
          rw [numbered, Fault.inLine, column]

end Account

/-! ## Ends are final -/

/-- After a run has ended the acts `more` have led from `history` to `later`: nothing has happened
but that the host was told of the end each time it ran the session. -/
structure StaysEnded (outcome : Outcome) (more : List Act) (history later : History) : Prop where
  events : later.events =
    history.events ++ List.replicate (more.countP Act.isExecute) (.stopped outcome)
  deeds : later.deeds = history.deeds
  outcome : later.session.outcome = some outcome
  output : later.session.output = ""
  returns : later.session.returns.toList = []
  loops : later.session.loops.toList = []
  memory : later.session.memory = history.session.memory
  place : later.session.place = history.session.place

/-- A run of `history` was interrupted, then came the acts `calls`, and then a call that has led to
`later`: it has ended the run with a break in a line and nothing else has happened. -/
structure Breaks (line : Option LineNumber) (calls : List Act) (history later : History) :
    Prop where
  events : later.events =
    history.events ++ List.replicate (calls.countP Act.isExecute) .running ++
      [.stopped (.broken line)]
  deeds : later.deeds = history.deeds
  outcome : later.session.outcome = some (.broken line)
  memory : later.session.memory = history.session.memory
  place : later.session.place = history.session.place

variable {program : Program} {config : Config} {s : Session} {history : History}

/-- A run that has ended with nothing left to print or to return to stays ended, whatever the host
does next. -/
theorem staysEnded (empty : history.session.output.isEmpty) {outcome : Outcome}
    (ended : history.session.outcome = some outcome)
    (closed : history.session.returns.toList = [] ∧ history.session.loops.toList = [])
    (more : List Act) : StaysEnded outcome more history (history.run more) := by
  have rests : ∀ cycles, Act.execute cycles ∈ more → ∀ t, Only callerParts history.session t →
      t.Rests (.stopped outcome) cycles := by
    intro cycles _ t only
    have sameOutput : t.output = history.session.output := only .output (by decide)
    have sameOutcome : t.outcome = history.session.outcome := only .outcome (by decide)
    exact rests_of_ended (by rwa [sameOutput]) (sameOutcome.trans ended) cycles
  obtain ⟨t, only, -, whole⟩ := run_of_rests rests
  have sameOutcome : t.outcome = history.session.outcome := only .outcome (by decide)
  have sameOutput : t.output = history.session.output := only .output (by decide)
  have sameReturns : t.returns = history.session.returns := only .returns (by decide)
  have sameLoops : t.loops = history.session.loops := only .loops (by decide)
  rw [whole]
  exact
    { events := rfl
      deeds := rfl
      outcome := sameOutcome.trans ended
      output := sameOutput.trans (String.isEmpty_iff.mp empty)
      returns := by rw [sameReturns]; exact closed.1
      loops := by rw [sameLoops]; exact closed.2
      memory := only .memory (by decide)
      place := only .place (by decide) }

/-- An interrupt lasts through whatever the host does without running a cycle. -/
theorem breaks (isOpen : history.session.Open) {calls : List Act}
    (idle : ∀ act ∈ calls, act.cycles = 0) (cycles : Nat) :
    Breaks history.session.line? calls history
      (((history.act .interrupt).run calls).act (.execute (cycles + 1))) := by
  have asked : Only callerParts history.session history.session.interrupt :=
    (only_interrupt _).mono (by decide)
  have rests : ∀ cycles, Act.execute cycles ∈ calls → ∀ t,
      Only callerParts (history.act .interrupt).session t → t.Rests .running cycles := by
    intro cycles inside t only
    obtain rfl : cycles = 0 := idle _ inside
    exact rests_of_open ((isOpen.caller asked).caller only)
  obtain ⟨t, onward, lasts, whole⟩ := run_of_rests rests
  have only : Only callerParts history.session t := IsTrans.trans _ _ _ asked onward
  obtain ⟨executed, deeds⟩ := execute_of_interrupted (isOpen.caller only) (lasts rfl) cycles
  have sameProgram : t.program = history.session.program := only .program (by decide)
  have samePlace : t.place = history.session.place := only .place (by decide)
  have sameLine : t.line? = history.session.line? := by
    unfold line?
    rw [sameProgram, samePlace]
  rw [sameLine] at executed
  rw [whole]
  simp only [History.act, executed, deeds, List.append_nil]
  exact
    { events := rfl
      deeds := rfl
      outcome := rfl
      memory := only .memory (by decide)
      place := samePlace }

/-- The end of a run is final and tells where it was. For every program that has been loaded and
whatever the host has done:

* a run that has ended stays ended in the same way;
* the call in which it ends tells of the end at once, or delivers the text that still waits;
* if it has failed, its last statement has, and the fault is that of the statement with the number
  of the line in which it stands and without columns;
* after an interrupt, the next call that may run a cycle ends the run with a break, and no statement
  is performed. -/
theorem end_is_final {source : String} {clock : Clock}
    (loaded : Session.load source config clock = .ok s) (acts : List Act) :
    let history := s.history.run acts
    (∀ outcome, history.session.outcome = some outcome →
      ∀ more, StaysEnded outcome more history (history.run more)) ∧
    (∀ cycles outcome, history.session.outcome = none →
      (history.session.execute cycles).2.outcome = some outcome →
      (history.session.execute cycles).1 = .stopped outcome ∨
        ∃ text, (history.session.execute cycles).1 = .print text) ∧
    (∀ fault, history.session.outcome = some (.failed fault) →
      ∃ front deed raw line, history.deeds = front ++ [deed] ∧ deed.result = .error raw ∧
        s.program.lines[deed.place.line]? = some line ∧
        line.statements[deed.place.offset]? = some deed.statement ∧
        fault =
          { code := raw.code, detail := raw.detail, line := some line.number, column := ⟨0, 0⟩ }) ∧
    (history.session.outcome = none → ∀ calls, (∀ act ∈ calls, act.cycles = 0) → ∀ cycles,
      Breaks history.session.line? calls history
        (((history.act .interrupt).run calls).act (.execute (cycles + 1)))) := by
  intro history
  obtain ⟨program, -, -, begins⟩ := exists_begins loaded
  have account : Account s history.deeds history.session := account_run begins acts
  obtain ⟨standing, empty⟩ := standing_run begins acts
  refine ⟨fun outcome ended more => ?_, fun cycles outcome goes ended => ?_, fun fault failed => ?_,
    fun goes calls idle cycles => ?_⟩
  · have closed := account.closed begins (by rw [ended]; exact nofun)
    exact staysEnded empty ended closed more
  · have told := execute_told begins.formed standing cycles
    cases event : (history.session.execute cycles).1 with
    | print text => exact .inr ⟨text, rfl⟩
    | stopped other =>
        rw [event] at told
        cases told.2.symm.trans ended
        exact .inl rfl
    | running =>
        rw [event] at told
        cases told.2.symm.trans ended
    | input prompt =>
        rw [event] at told
        cases told.1.2.symm.trans ended
  · rw [begins.standing.program_eq]
    exact account.failed begins failed
  · exact breaks ⟨empty, goes⟩ idle cycles

/-- A program fails in a function that is defined in another line than the one it is called in, and
after a jump. The fault is placed in the line of the call, the text before it is delivered, and
from then on the host is told of the fault. An interrupt before the jump would have ended the run
there. -/
theorem end_is_final_function :
    let source := "10 DEF FNA(X)=ASC(\"\")\n20 PRINT \"A\";:GOTO 40\n40 REM\n50 PRINT \"B\";FNA(1)"
    let fault : Fault := { code := .illegalFunctionCall, detail := "ASC", line := some 50 }
    ∃ s, Session.load source { seed := 0 } ⟨2000, 1, 1, 0, 0, 0⟩ = .ok s ∧
      (s.history.run [.execute 9, .execute 9]).events = [.print "A", .print "B"] ∧
      (∃ deed front raw line, (s.history.run [.execute 9, .execute 9]).deeds = front ++ [deed] ∧
        deed.result = .error raw ∧ s.program.lines[deed.place.line]? = some line ∧
        line.statements[deed.place.offset]? = some deed.statement ∧
        fault =
          { code := raw.code, detail := raw.detail, line := some line.number, column := ⟨0, 0⟩ }) ∧
      StaysEnded (.failed fault) [.interrupt, .execute 3, .answer "", .execute 0]
        (s.history.run [.execute 9, .execute 9])
        ((s.history.run [.execute 9, .execute 9]).run
          [.interrupt, .execute 3, .answer "", .execute 0]) ∧
      Breaks (some 20) [.execute 0] (s.history.run [.execute 9])
        ((((s.history.run [.execute 9]).act .interrupt).run [.execute 0]).act (.execute 1)) := by
  intro source fault
  let test (s : Session) : Bool :=
    let first := s.history.run [.execute 9]
    let second := s.history.run [.execute 9, .execute 9]
    first.session.outcome == none && first.session.line? == some 20 &&
      second.session.outcome == some (.failed fault) && second.events == [.print "A", .print "B"]
  obtain ⟨s, loaded, tested⟩ : ∃ s,
      Session.load source { seed := 0 } ⟨2000, 1, 1, 0, 0, 0⟩ = .ok s ∧ test s = true :=
    exists_ok_of_any (by decide +kernel)
  simp only [test, Bool.and_eq_true, beq_iff_eq] at tested
  obtain ⟨⟨⟨goes, stands⟩, failed⟩, events⟩ := tested
  obtain ⟨ended, -, located, -⟩ := end_is_final loaded [.execute 9, .execute 9]
  obtain ⟨-, -, -, breaks⟩ := end_is_final loaded [.execute 9]
  obtain ⟨front, deed, raw, line, placed⟩ := located fault failed
  refine ⟨s, loaded, events, ⟨deed, front, raw, line, placed⟩, ended _ failed _, ?_⟩
  rw [← stands]
  exact breaks goes [.execute 0] (List.forall_mem_singleton.mpr rfl) 0

end NumberedBasic
