import NumberedBasic.Proofs.Loading
import NumberedBasic.Session.Execute

/-!
# What holds of a session between its statements

`Session.Standing` is the invariant of a run: the session is sound, it stands at a place in the
program, no call of a function is open, and if the run has failed, the fault was an ordinary one.
`turn_cases` says all that one statement can do to a run. The invariant is kept by a statement
(`Standing.turn`), by any number of them (`Standing.execute`) and by what the host does in between,
so it holds of every session a host can bring about (`Reachable.standing`).

Two results are about all of these sessions: they are well-formed and no run ends in a fault that is
not the program's own (`reachable_wellFormed`), and evaluating an expression in them changes the
random numbers and nothing else that can be told (`evaluate_leaves_session`). `Session.Told` is what
the host may conclude from the events of a run.
-/

set_option autoImplicit false

namespace NumberedBasic

/-- What an ordinary fault consists of. -/
theorem Fault.ordinary_iff {fault : Fault} :
    fault.Ordinary ↔
      fault.code.isOrdinary = true ∧ fault.line = none ∧ fault.column = Span.none := by
  simp [Fault.Ordinary, and_assoc]

/-- An outcome that is not a fault of the reader or of the interpreter itself. -/
def Outcome.Ordinary : Outcome → Prop
  | .failed fault => fault.code.isOrdinary = true
  | .ended | .broken _ => True

/-- The kinds of faults that are not ordinary. -/
theorem Outcome.Ordinary.kind {fault : Fault} (h : (Outcome.failed fault).Ordinary) :
    fault.code.kind ∉ [Kind.internal, .lexical, .syntactic] := by
  unfold Outcome.Ordinary Code.isOrdinary at h
  cases kind : fault.code.kind <;> simp_all

namespace Session

open Effect

/-- A session between two statements of a run of the program. -/
structure Standing (program : Program) (config : Config) (s : Session) : Prop
    extends Sound program config s where
  place : 0 < program.lines.size → program.Covers s.place
  callDepth : s.callDepth = 0
  outcome : ∀ outcome, s.outcome = some outcome → outcome.Ordinary

variable {program : Program} {config : Config} {s t : Session}

/-- The parts that statements may change. -/
def statementParts : List Part :=
  [.memory, .functions, .returns, .loops, .dice, .nextDatum, .column, .output, .reply]

/-- No statement changes other parts. -/
theorem footprint_subset (statement : Statement) : statement.footprint ⊆ statementParts := by
  cases statement with
  | run command => cases command <;> simp [Statement.footprint, Command.footprint, statementParts]
  | branch | skip => simp [Statement.footprint, statementParts]

/-- The parts that may change between statements. -/
def hostParts : List Part :=
  [.clock, .dice, .column, .output, .reply, .interrupted]

/-- A reply that is given is all that changes. -/
theorem only_answer (s : Session) (reply : String) : Only [.reply] s (s.answer reply) := by
  intro part
  cases part <;> simp [Session.answer]

/-- An interrupt is all that changes when one is asked for. -/
theorem only_interrupt (s : Session) : Only [.interrupted] s s.interrupt := by
  intro part
  cases part <;> simp [Session.interrupt]

/-- The clock is all that changes when it is set. -/
theorem only_setClock (s : Session) (clock : Clock) : Only [.clock] s { s with clock } := by
  intro part
  cases part <;> simp

/-- The text that waits is all that changes when it is delivered. -/
theorem only_emptied (s : Session) : Only [.output] s { s with output := "" } := by
  intro part
  cases part <;> simp

/-- What the host may do between statements keeps the invariant. -/
theorem Standing.of_only (standing : Standing program config s) (only : Only hostParts s t) :
    Standing program config t := by
  have sameMemory : t.memory = s.memory := only .memory (by decide)
  have samePlace : t.place = s.place := only .place (by decide)
  have sameDepth : t.callDepth = s.callDepth := only .callDepth (by decide)
  have sameOutcome : t.outcome = s.outcome := only .outcome (by decide)
  have sound : Sound program config t :=
    standing.toSound.of_only (only.mono (by decide)) (sameMemory ▸ standing.fits)
  refine ⟨sound, ?_, ?_, ?_⟩
  · rw [samePlace]
    exact standing.place
  · rw [sameDepth]
    exact standing.callDepth
  · rw [sameOutcome]
    exact standing.outcome

/-- Performing a statement at a place in the program keeps what the invariant adds to soundness. -/
theorem Standing.of_sound (standing : Standing program config s) (sound : Sound program config t)
    (only : Only (.place :: statementParts) s t) (covers : program.Covers t.place) :
    Standing program config t := by
  have sameDepth : t.callDepth = s.callDepth := only .callDepth (by decide)
  have sameOutcome : t.outcome = s.outcome := only .outcome (by decide)
  refine ⟨sound, fun _ => covers, ?_, ?_⟩
  · rw [sameDepth]
    exact standing.callDepth
  · rw [sameOutcome]
    exact standing.outcome

/-- What is delivered is the text that waits, if there is any. -/
theorem deliver_cases (s : Session) :
    (s.deliver = (none, s) ∧ s.output.isEmpty) ∨
      (s.deliver = (some (.print s.output), { s with output := "" }) ∧ ¬s.output.isEmpty) := by
  unfold deliver
  by_cases empty : s.output.isEmpty
  · rw [if_pos empty]
    exact .inl ⟨rfl, empty⟩
  · rw [if_neg empty]
    exact .inr ⟨rfl, empty⟩

/-- Delivering text leaves a session between two statements. -/
theorem Standing.deliver (standing : Standing program config s) :
    Standing program config s.deliver.2 := by
  rcases s.deliver_cases with ⟨nothing, -⟩ | ⟨text, -⟩
  · rw [nothing]
    exact standing
  · rw [text]
    exact standing.of_only ((only_emptied s).mono (by decide))

/-- The run is said to have stopped, unless text waits to be delivered. -/
theorem finish_cases (s : Session) (outcome : Outcome) :
    (s.finish outcome = (.stopped outcome, s.close outcome) ∧ s.output.isEmpty) ∨
      s.finish outcome = (.print s.output, { s.close outcome with output := "" }) := by
  rcases (s.close outcome).deliver_cases with ⟨nothing, empty⟩ | ⟨text, -⟩
  · refine .inl ⟨?_, empty⟩
    simp only [finish, nothing]
  · refine .inr ?_
    simp only [finish, text]
    rfl

/-- An ordinary end of a run leaves a session between two statements. -/
theorem Standing.finish (standing : Standing program config s) {outcome : Outcome}
    (ordinary : outcome.Ordinary) : Standing program config (s.finish outcome).2 := by
  have closed : Standing program config (s.close outcome) :=
    { standing with
      returns := fun a inside => by cases inside
      limit := standing.limit
      loops := fun loop inside => by cases inside
      outcome := fun other same => by
        obtain rfl := Option.some.inj same
        exact ordinary }
  rcases s.finish_cases outcome with ⟨stopped, -⟩ | print
  · rw [stopped]
    exact closed
  · rw [print]
    exact closed.of_only ((only_emptied _).mono (by decide))

/-! ## One statement -/

/-- The statement at or after the place where a session stands is performed at its own place. -/
theorem step_of_statement? {here : Address} {statement : Statement}
    (found : s.program.statement? s.place = some (here, statement)) :
    step s = perform here statement { s with place := here } := by
  unfold step
  rw [bind_of_ok (x := Effect.get _) rfl, found]
  exact bind_of_ok (x := Effect.modify _) rfl

/-- What moving to a statement and performing it can do: end the program, wait for a reply at that
statement, or perform it and leave the session at its place. -/
theorem step_cases (formed : program.Formed) (standing : Standing program config s) :
    step s = (.ok .finish, s) ∨
      (∃ prompt t, step s = (.ok (.ask prompt), t) ∧ step t = (.ok (.ask prompt), t) ∧
        Only [.place] s t ∧ Standing program config t) ∨
      ∃ result t, step s = (result, t) ∧ Only (.place :: statementParts) s t ∧
        Settles Fault.Ordinary (Course.Fits program) result ∧ Standing program config t ∧
        program.Covers t.place.next := by
  cases found : s.program.statement? s.place with
  | none =>
      refine .inl ?_
      unfold step
      rw [bind_of_ok (x := Effect.get _) rfl, found]
      rfl
  | some pair =>
      obtain ⟨here, statement⟩ := pair
      let moved : Session := { s with place := here }
      have whole : step s = perform here statement moved := step_of_statement? found
      have movedOnly : Only [.place] s moved := only_moveTo s here
      have movedSound : Sound program config moved := standing.toSound.moveTo here
      have stands : program.statementAt? here = some statement := by
        rw [← standing.program_eq]
        exact Program.statementAt?_of_statement? found
      have covers : program.Covers here := Program.covers_of_statementAt? stands
      have done := perform_cases formed stands movedSound
      rcases performed : perform here statement moved with ⟨result, t⟩
      rw [performed] at whole done
      rcases done with ⟨prompt, asked⟩ | ⟨sound, only, settled⟩
      · cases asked
        -- polling again finds the same statement and the same session
        have same : moved.program.statement? moved.place = some (here, statement) := by
          rw [movedSound.program_eq]
          exact Program.statement?_of_statementAt? stands
        have again : step moved = (.ok (.ask prompt), moved) :=
          (step_of_statement? same).trans performed
        have movedStanding : Standing program config moved :=
          standing.of_sound movedSound (movedOnly.mono (by decide)) covers
        exact .inr (.inl ⟨prompt, moved, whole, again, movedOnly, movedStanding⟩)
      · have same : t.place = here :=
          only .place fun inside => absurd (footprint_subset statement inside) (by decide)
        have parts : Only (.place :: statementParts) s t :=
          IsTrans.trans _ _ _ (movedOnly.mono (by decide))
            (only.mono fun _ inside => List.mem_cons_of_mem _ (footprint_subset statement inside))
        refine .inr (.inr ⟨result, t, whole, parts, settled, standing.of_sound sound parts ?_, ?_⟩)
        · rw [same]
          exact covers
        · rw [same]
          exact Program.covers_next stands

/-- A session that is not interrupted follows the result of its statement. -/
theorem turn_of_step (quiet : ¬s.interrupted) {result : Except Fault Course}
    (done : step s = (result, t)) : turn s = follow result t := by
  simp only [turn, quiet, done]
  rfl

/-- The parts that the end of a run changes. -/
def endParts : List Part :=
  [.returns, .loops, .output, .outcome]

/-- The end of a run changes the parts that it may change, and no others. -/
theorem only_stop (s : Session) (outcome : Outcome) : Only endParts s (s.stop outcome).2 := by
  show Only endParts s (s.finish outcome).2
  rcases s.finish_cases outcome with ⟨stopped, -⟩ | print
  · rw [stopped]
    intro part
    cases part <;> simp [close, endParts]
  · rw [print]
    intro part
    cases part <;> simp [close, endParts]

/-- Following the result of a statement moves on or ends the run. -/
theorem only_follow (result : Except Fault Course) (s : Session) :
    Only (.place :: endParts) s (follow result s).2 := by
  have delivers : ∀ place, Only (.place :: endParts) s { s with place }.deliver.2 := by
    intro place
    rcases ({ s with place } : Session).deliver_cases with ⟨nothing, -⟩ | ⟨text, -⟩
    · rw [nothing]
      intro part
      cases part <;> simp [endParts]
    · rw [text]
      intro part
      cases part <;> simp [endParts]
  have stops : ∀ outcome, Only (.place :: endParts) s (s.stop outcome).2 :=
    fun outcome => (only_stop s outcome).mono (by decide)
  cases result with
  | error fault => exact stops _
  | ok course =>
      cases course with
      | next | jump => exact delivers _
      | ask => exact Std.Refl.refl s
      | finish | stop => exact stops _

/-- What one statement can do to a run: wait for a reply, go on, or end the run. -/
theorem turn_cases (formed : program.Formed) (standing : Standing program config s) :
    (∃ prompt t, turn s = (some (.input prompt), t) ∧ turn t = (some (.input prompt), t) ∧
        Only [.place] s t ∧ Standing program config t) ∨
      (∃ t, turn s = t.deliver ∧ Only (.place :: statementParts) s t ∧
        Standing program config t) ∨
      ∃ outcome t, turn s = t.stop outcome ∧ outcome.Ordinary ∧ Standing program config t := by
  by_cases interrupted : s.interrupted
  · refine .inr (.inr ⟨.broken s.line?, { s with interrupted := false }, ?_, trivial, ?_⟩)
    · rw [turn, if_pos interrupted]
    · refine standing.of_only fun part => ?_
      cases part <;> simp [hostParts]
  · rcases step_cases formed standing with
      ended | ⟨prompt, t, asked, again, only, waiting⟩ |
      ⟨result, t, done, only, settled, left, covers⟩
    · exact .inr (.inr ⟨.ended, s, turn_of_step interrupted ended, trivial, standing⟩)
    · have same : t.interrupted = s.interrupted := only .interrupted (by decide)
      have quiet : ¬t.interrupted := by rwa [same]
      exact .inl ⟨prompt, t, turn_of_step interrupted asked, turn_of_step quiet again, only,
        waiting⟩
    · have follows : turn s = follow result t := turn_of_step interrupted done
      -- the next place is the one after the statement, or the target of a jump
      have goes : ∀ place, program.Covers place →
          Only (.place :: statementParts) s { t with place } ∧
            Standing program config { t with place } := by
        intro place covers
        refine ⟨fun part outside => ?_, { left with place := fun _ => covers }⟩
        have same := only part outside
        cases part with
        | place => exact absurd List.mem_cons_self outside
        | _ => exact same
      cases result with
      | error fault =>
          exact .inr (.inr ⟨_, t, follows, (Fault.ordinary_iff.mp settled).1, left⟩)
      | ok course =>
          cases course with
          | next => exact .inr (.inl ⟨_, follows, goes _ covers⟩)
          | jump target => exact .inr (.inl ⟨_, follows, goes _ settled⟩)
          | ask prompt => exact settled.elim
          | finish => exact .inr (.inr ⟨_, t, follows, trivial, left⟩)
          | stop => exact .inr (.inr ⟨_, t, follows, trivial, left⟩)

/-! ## Events -/

/-- Statements are performed when the session is run: no text waits and the run has not ended. -/
def Open (s : Session) : Prop :=
  s.output.isEmpty ∧ s.outcome = none

/-- What an event says of the session it leaves. Text that is printed no longer waits, a reply that
is asked for is still asked for, and a run that has stopped has ended. -/
def Told (s : Session) : Event → Prop
  | .running => s.Open
  | .print _ => s.output.isEmpty
  | .input prompt => s.Open ∧ s.turn = (some (.input prompt), s)
  | .stopped outcome => s.output.isEmpty ∧ s.outcome = some outcome

/-- The event of a run that ends. -/
theorem finish_told (s : Session) (outcome : Outcome) :
    (s.finish outcome).1 ≠ .running ∧ (s.finish outcome).2.Told (s.finish outcome).1 := by
  rcases s.finish_cases outcome with ⟨stopped, empty⟩ | print
  · rw [stopped]
    exact ⟨nofun, empty, rfl⟩
  · rw [print]
    exact ⟨nofun, rfl⟩

/-- A statement leads to an event that fits the session, or leaves it open. -/
theorem turn_told (formed : program.Formed) (standing : Standing program config s)
    (isOpen : s.Open) :
    (∃ t, s.turn = (none, t) ∧ t.Open) ∨
      ∃ event t, s.turn = (some event, t) ∧ event ≠ .running ∧ t.Told event := by
  rcases turn_cases formed standing with
    ⟨prompt, t, asked, again, only, -⟩ | ⟨t, goes, only, -⟩ | ⟨outcome, t, stops, -, -⟩
  · have sameOutput : t.output = s.output := only .output (by decide)
    have sameOutcome : t.outcome = s.outcome := only .outcome (by decide)
    have stillOpen : t.Open := by
      unfold Open
      rw [sameOutput, sameOutcome]
      exact isOpen
    exact .inr ⟨_, t, asked, nofun, stillOpen, again⟩
  · have sameOutcome : t.outcome = s.outcome := only .outcome (by decide)
    rcases t.deliver_cases with ⟨nothing, empty⟩ | ⟨text, -⟩
    · exact .inl ⟨t, goes.trans nothing, empty, sameOutcome.trans isOpen.2⟩
    · exact .inr ⟨_, _, goes.trans text, nofun, rfl⟩
  · exact .inr ⟨_, _, stops, t.finish_told outcome⟩

/-! ## Runs -/

/-- One cycle leaves a session between two statements. -/
theorem Standing.turn (formed : program.Formed) (standing : Standing program config s) :
    Standing program config s.turn.2 := by
  rcases turn_cases formed standing with
    ⟨prompt, t, asked, -, -, waiting⟩ | ⟨t, goes, -, left⟩ | ⟨outcome, t, stops, ordinary, left⟩
  · rw [asked]
    exact waiting
  · rw [goes]
    exact left.deliver
  · rw [stops]
    exact left.finish ordinary

/-- Any number of statements keep the invariant. -/
theorem Standing.cycle (formed : program.Formed) (standing : Standing program config s)
    (cycles : Nat) : Standing program config (s.cycle cycles).2 := by
  fun_induction Session.cycle cycles s with
  | case1 s => exact standing
  | case2 cycles s event t turned =>
      have kept := standing.turn formed
      rwa [turned] at kept
  | case3 cycles s t turned ih =>
      have kept := standing.turn formed
      rw [turned] at kept
      exact ih kept

/-- What is done first: text that waits is delivered, and a run that has ended is said to have
stopped. Otherwise statements are performed. -/
theorem execute_cases (s : Session) :
    (¬s.output.isEmpty ∧
        ∀ cycles, s.execute cycles = (.print s.output, { s with output := "" })) ∨
      (s.output.isEmpty ∧ ∃ outcome, s.outcome = some outcome ∧
        ∀ cycles, s.execute cycles = (.stopped outcome, s)) ∨
      (s.output.isEmpty ∧ s.outcome = none ∧ ∀ cycles, s.execute cycles = s.cycle cycles) := by
  rcases s.deliver_cases with ⟨nothing, empty⟩ | ⟨text, nonempty⟩
  · cases ended : s.outcome with
    | some outcome =>
        refine .inr (.inl ⟨empty, outcome, rfl, fun cycles => ?_⟩)
        simp only [execute, nothing, ended]
    | none =>
        refine .inr (.inr ⟨empty, rfl, fun cycles => ?_⟩)
        simp only [execute, nothing, ended]
  · refine .inl ⟨nonempty, fun cycles => ?_⟩
    simp only [execute, text]

/-- The event of some statements fits the session they leave. -/
theorem cycle_told (formed : program.Formed) (standing : Standing program config s)
    (isOpen : s.Open) (cycles : Nat) : (s.cycle cycles).2.Told (s.cycle cycles).1 := by
  fun_induction Session.cycle cycles s with
  | case1 s => exact isOpen
  | case2 cycles s event t turned =>
      rcases turn_told formed standing isOpen with ⟨u, goes, -⟩ | ⟨other, u, told, -, fits⟩
      · rw [turned] at goes
        cases goes
      · rw [turned] at told
        cases told
        exact fits
  | case3 cycles s t turned ih =>
      have kept := standing.turn formed
      rw [turned] at kept
      rcases turn_told formed standing isOpen with ⟨u, goes, stillOpen⟩ | ⟨other, u, told, -, -⟩
      · rw [turned] at goes
        cases goes
        exact ih kept stillOpen
      · rw [turned] at told
        cases told

/-- What the host is told fits the session it is left with. -/
theorem execute_told (formed : program.Formed) (standing : Standing program config s)
    (cycles : Nat) : (s.execute cycles).2.Told (s.execute cycles).1 := by
  rcases s.execute_cases with ⟨-, print⟩ | ⟨empty, outcome, ended, stopped⟩ | ⟨empty, going, runs⟩
  · rw [print]
    rfl
  · rw [stopped]
    exact ⟨empty, ended⟩
  · rw [runs]
    exact cycle_told formed standing ⟨empty, going⟩ cycles

/-- Running a session keeps the invariant. -/
theorem Standing.execute (formed : program.Formed) (standing : Standing program config s)
    (cycles : Nat) : Standing program config (s.execute cycles).2 := by
  rcases s.execute_cases with ⟨-, print⟩ | ⟨-, outcome, -, stopped⟩ | ⟨-, -, runs⟩
  · rw [print]
    exact standing.of_only ((only_emptied s).mono (by decide))
  · rw [stopped]
    exact standing
  · rw [runs]
    exact standing.cycle formed cycles

/-- A reply leaves a session between two statements. -/
theorem Standing.answer (standing : Standing program config s) (reply : String) :
    Standing program config (s.answer reply) :=
  standing.of_only ((only_answer s reply).mono (by decide))

/-- A session that starts stands before the first statement. -/
theorem standing_start (program : Program) (config : Config) (clock : Clock) :
    Standing program config (start program config clock) where
  program_eq := rfl
  fits := Memory.fits_empty
  defined name a found := by simp [start] at found
  config_eq := rfl
  returns a inside := by cases inside
  limit := rfl
  loops loop inside := by cases inside
  nextDatum := Nat.zero_le _
  place nonempty := ⟨_, Array.getElem?_eq_getElem nonempty, Nat.zero_le _⟩
  callDepth := rfl
  outcome outcome same := by cases same

/-- The sessions that a host can bring about: those that have been loaded, and those that come of
running a session, replying to it, interrupting it, or setting its clock. -/
inductive Reachable : Session → Prop
  | load {source : String} {config : Config} {clock : Clock} {s : Session}
      (loaded : Session.load source config clock = .ok s) : Reachable s
  | execute {s : Session} (before : Reachable s) (cycles : Nat) : Reachable (s.execute cycles).2
  | answer {s : Session} (before : Reachable s) (reply : String) : Reachable (s.answer reply)
  | interrupt {s : Session} (before : Reachable s) : Reachable s.interrupt
  | setClock {s : Session} (before : Reachable s) (clock : Clock) : Reachable { s with clock }

/-- A session that has been loaded is at the start of a program that was loaded. -/
theorem exists_of_load {source : String} {clock : Clock}
    (loaded : Session.load source config clock = .ok s) :
    ∃ program, program.Formed ∧ s = start program config clock := by
  obtain ⟨program, read, same⟩ := exists_of_bind_eq_ok loaded
  cases same
  exact ⟨program, Program.formed_of_load read, rfl⟩

/-- The invariant holds of every session that a host can bring about. -/
theorem Reachable.standing (h : Reachable s) :
    ∃ program config, program.Formed ∧ Standing program config s := by
  induction h with
  | load loaded =>
      obtain ⟨program, formed, rfl⟩ := exists_of_load loaded
      exact ⟨program, _, formed, standing_start program _ _⟩
  | execute _ cycles ih =>
      obtain ⟨program, config, formed, standing⟩ := ih
      exact ⟨program, config, formed, standing.execute formed cycles⟩
  | answer _ reply ih =>
      obtain ⟨program, config, formed, standing⟩ := ih
      exact ⟨program, config, formed, standing.answer reply⟩
  | interrupt _ ih =>
      obtain ⟨program, config, formed, standing⟩ := ih
      exact ⟨program, config, formed, standing.of_only ((only_interrupt _).mono (by decide))⟩
  | setClock _ clock ih =>
      obtain ⟨program, config, formed, standing⟩ := ih
      exact ⟨program, config, formed, standing.of_only ((only_setClock _ clock).mono (by decide))⟩

/-- What holds of a session at the start of a program, is kept by every statement and does not
depend on what the host may change holds of every session that a host can bring about. -/
theorem Reachable.invariant {J : Session → Prop}
    (loaded : ∀ {source : String} {program : Program} (config : Config) (clock : Clock),
      Program.load source = .ok program → J (start program config clock))
    (turns : ∀ {program : Program} {config : Config} {s : Session}, program.Formed →
      Standing program config s → J s → J s.turn.2)
    (hosts : ∀ {s t : Session}, Only hostParts s t → J s → J t) (h : Reachable s) : J s := by
  induction h with
  | load load =>
      obtain ⟨program, read, same⟩ := exists_of_bind_eq_ok load
      cases same
      exact loaded _ _ read
  | @execute s before cycles ih =>
      obtain ⟨program, config, formed, standing⟩ := before.standing
      have cycled : J (s.cycle cycles).2 := by
        clear before
        -- What a cycle relies on is kept along with the property.
        fun_induction Session.cycle cycles s with
        | case1 s => exact ih
        | case2 cycles s event t turned =>
            have kept := turns formed standing ih
            rwa [turned] at kept
        | case3 cycles s t turned again =>
            have kept := turns formed standing ih
            have left := standing.turn formed
            rw [turned] at kept left
            exact again kept left
      rcases s.execute_cases with ⟨-, print⟩ | ⟨-, outcome, -, stopped⟩ | ⟨-, -, runs⟩
      · rw [print]
        exact hosts ((only_emptied s).mono (by decide)) ih
      · rw [stopped]
        exact ih
      · rw [runs]
        exact cycled
  | answer _ reply ih => exact hosts ((only_answer _ reply).mono (by decide)) ih
  | interrupt _ ih => exact hosts ((only_interrupt _).mono (by decide)) ih
  | setClock _ clock ih => exact hosts ((only_setClock _ clock).mono (by decide)) ih

/-- A session that keeps to its program: it stands at a place in it, returns and loops lead to such
places, functions are definitions of the program under their own names, the next data item is one
of the program or the end of the data, no call is open, and subroutines are not nested deeper than
they may be. -/
structure WellFormed (s : Session) : Prop where
  place : 0 < s.program.lines.size → s.program.Covers s.place
  returns : ∀ a ∈ s.returns.entries, s.program.Covers a
  loops : ∀ loop ∈ s.loops.entries, s.program.Covers loop.body
  functions : ∀ name a, s.functions[name]? = some a → s.program.Defines a name
  nextDatum : s.nextDatum ≤ s.program.data.size
  callDepth : s.callDepth = 0
  returnDepth : s.returns.entries.length ≤ s.config.stackLimit

/-- The invariant of runs makes sessions well-formed. -/
theorem Standing.wellFormed (standing : Standing program config s) : s.WellFormed := by
  obtain rfl := standing.program_eq
  obtain rfl := standing.config_eq
  refine ⟨standing.place, standing.returns, standing.loops, standing.defined, standing.nextDatum,
    standing.callDepth, ?_⟩
  rw [← standing.limit, ← s.returns.counted]
  exact s.returns.fits

/-- Every session that a host can bring about is well-formed, so a session of a program with lines
stands in one of them, and no run ends in a fault of the interpreter or of its reader. -/
theorem reachable_wellFormed (reachable : Reachable s) :
    s.WellFormed ∧ (0 < s.program.lines.size → s.line?.isSome) ∧
      (∀ fault, s.outcome = some (.failed fault) →
        fault.code.kind ∉ [Kind.internal, .lexical, .syntactic]) ∧
      ∀ cycles fault, (s.execute cycles).1 = .stopped (.failed fault) →
        fault.code.kind ∉ [Kind.internal, .lexical, .syntactic] := by
  obtain ⟨program, config, formed, standing⟩ := reachable.standing
  have wellFormed := standing.wellFormed
  refine ⟨wellFormed, fun nonempty => ?_, fun fault failed => ?_, fun cycles fault stopped => ?_⟩
  · exact (wellFormed.place nonempty).lineNumber?_isSome
  · exact (standing.outcome _ failed).kind
  · have told := execute_told formed standing cycles
    rw [stopped] at told
    exact ((standing.execute formed cycles).outcome _ told.2).kind

/-- A result that satisfies a test is there. -/
theorem exists_ok_of_any {ε α : Type} {result : Except ε α} {test : α → Bool}
    (h : result.toOption.any test = true) : ∃ a, result = .ok a ∧ test a = true := by
  cases result with
  | ok a => exact ⟨a, rfl, h⟩
  | error e => cases h

/-- A program that calls itself until its stack is full has a well-formed session in the middle of
the run, and fails with a fault of its own. -/
theorem reachable_wellFormed_overflow :
    ∃ s fault, Reachable s ∧ s.returns.depth = 1 ∧ s.WellFormed ∧ s.line?.isSome ∧
      (s.execute 5).1 = .stopped (.failed fault) ∧
      fault.code.kind ∉ [Kind.internal, .lexical, .syntactic] := by
  let config : Config := { stackLimit := 2, seed := 0 }
  let test (s : Session) : Bool :=
    let t := (s.execute 1).2
    t.returns.depth == 1 && decide (0 < t.program.lines.size) &&
      match (t.execute 5).1 with
      | .stopped (.failed _) => true
      | _ => false
  obtain ⟨s, loaded, tested⟩ : ∃ s,
      Session.load "10 GOSUB 10" config ⟨2000, 1, 1, 0, 0, 0⟩ = .ok s ∧ test s = true :=
    exists_ok_of_any (by decide +kernel)
  simp only [test, Bool.and_eq_true, beq_iff_eq, decide_eq_true_eq] at tested
  obtain ⟨⟨depth, nonempty⟩, failed⟩ := tested
  have reachable : Reachable (s.execute 1).2 := (Reachable.load loaded).execute 1
  obtain ⟨wellFormed, stands, -, ordinary⟩ := reachable_wellFormed reachable
  split at failed
  next fault stopped =>
    exact ⟨_, fault, reachable, depth, wellFormed, stands nonempty, stopped,
      ordinary 5 fault stopped⟩
  next => cases failed

/-! ## Evaluation -/

/-- Evaluating an expression in a session that a host can bring about changes its random numbers and
nothing else that can be told: every variable reads as before, and all other parts are the same,
whether the evaluation yields a value or fails. -/
theorem evaluate_leaves_session (reachable : Reachable s) (e : Expr) :
    ∃ scalars dice,
      (evaluate e s).2 = { s with memory := ⟨scalars, s.memory.arrays⟩, dice } ∧
      ∀ name, (evaluate e s).2.memory.fetch name = s.memory.fetch name := by
  obtain ⟨program, config, formed, standing⟩ := reachable.standing
  obtain ⟨-, quiet, -⟩ := (quiet_evaluate e).outcome standing.toReady
  exact ⟨_, _, quiet.eq_with, quiet.fetch⟩

/-- A function that calls itself without end fails a hundred calls deep, and its parameter reads as
before although every call has assigned to it. -/
theorem evaluate_leaves_session_recursion :
    ∃ s fault, Reachable s ∧
      (evaluate (.user .none (.plain "FNA") [.number .none 3.0]) s).1 = .error fault ∧
      s.memory.fetch "X" = .number 5.0 ∧
      (evaluate (.user .none (.plain "FNA") [.number .none 3.0]) s).2.memory.fetch "X" =
        .number 5.0 := by
  let e : Expr := .user .none (.plain "FNA") [.number .none 3.0]
  let test (s : Session) : Bool :=
    let t := (s.execute 2).2
    decide (t.memory.fetch "X" = .number 5.0) && !(evaluate e t).1.toBool
  obtain ⟨s, loaded, tested⟩ : ∃ s,
      Session.load "10 DEF FNA(X)=X/FNA(X-1)\n20 X=5" { seed := 0 } ⟨2000, 1, 1, 0, 0, 0⟩ = .ok s ∧
        test s = true :=
    exists_ok_of_any (by decide +kernel)
  simp only [test, Bool.and_eq_true, decide_eq_true_eq, Bool.not_eq_true'] at tested
  obtain ⟨before, failed⟩ := tested
  have reachable : Reachable (s.execute 2).2 := (Reachable.load loaded).execute 2
  obtain ⟨-, -, -, same⟩ := evaluate_leaves_session reachable e
  cases result : (evaluate e (s.execute 2).2).1 with
  | ok value =>
      rw [result] at failed
      cases failed
  | error fault => exact ⟨_, fault, reachable, result, before, (same "X").trans before⟩

end Session

end NumberedBasic
