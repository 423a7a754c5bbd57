import NumberedBasic.Proofs.SessionInvariant

/-!
# The history of a run

What a host does with a session is a list of acts. `History.run` carries them out and notes two
things: the events that the host is told, and the statements that were performed, each together with
the session it was performed in (`Deed`).

A property of histories is `Advancing` if it is kept by one cycle of an open run and by events that
tell of no text. If it is kept by what the host does in between as well, it is `Lasting`, and holds
of all histories (`Lasting.run`).
In this way every history is found to hang together (`account_run`): each statement was performed
where the one before it has led (`Leads`), and only the last one can have ended the run (`Account`).
`Leads.split` and `Account.split` look at one of the statements and at what came after it.
-/

set_option autoImplicit false

namespace NumberedBasic

/-- What a host does with a session. -/
inductive Act where
  | execute (cycles : Nat)
  | answer (reply : String)
  | interrupt
  | setClock (clock : Clock)

/-- Whether an act runs the session. -/
def Act.isExecute : Act → Bool
  | .execute _ => true
  | .answer _ | .interrupt | .setClock _ => false

/-- An act that runs the session runs it for some number of cycles. -/
theorem Act.exists_of_isExecute {act : Act} (h : act.isExecute = true) :
    ∃ cycles, act = .execute cycles := by
  cases act with
  | execute cycles => exact ⟨cycles, rfl⟩
  | answer | interrupt | setClock => cases h

/-- A statement that was performed, and the session it was performed in, which stands at it. -/
structure Deed where
  session : Session
  statement : Statement

namespace Deed

/-- Where the statement stands. -/
def place (deed : Deed) : Address :=
  deed.session.place

/-- How the statement went. -/
def result (deed : Deed) : Except Fault Course :=
  (Session.perform deed.place deed.statement deed.session).1

/-- The session that the statement left. -/
def left (deed : Deed) : Session :=
  (Session.perform deed.place deed.statement deed.session).2

/-- Where the run goes on after the statement, unless it has ended the run. A statement that waits
for a reply is performed again. -/
def goal? (deed : Deed) : Option Address :=
  match deed.result with
  | .ok .next => some deed.place.next
  | .ok (.jump target) => some target
  | .ok (.ask _) => some deed.place
  | .ok .finish | .ok .stop | .error _ => none

/-- How the statement has ended the run, if it has. -/
def outcome? (deed : Deed) : Option Outcome :=
  match deed.result with
  | .ok .next | .ok (.jump _) | .ok (.ask _) => none
  | .ok .finish => some .ended
  | .ok .stop => some (.broken deed.session.line?)
  | .error fault => some (.failed (fault.inLine deed.session.line?))

end Deed

namespace Session

/-- The statement that the next cycle of an open run performs. -/
def deed? (s : Session) : Option Deed :=
  if s.interrupted then none
  else
    (s.program.statement? s.place).map fun (here, statement) =>
      ⟨{ s with place := here }, statement⟩

/-- The statements that at most `cycles` cycles of an open run perform. -/
def cycleDeeds : Nat → Session → List Deed
  | 0, _ => []
  | cycles + 1, s =>
    s.deed?.toList ++
      match s.turn with
      | (some _, _) => []
      | (none, t) => cycleDeeds cycles t

/-- The statements that are performed when a session is run: none while text waits to be delivered,
and none after the end. -/
def executeDeeds (cycles : Nat) (s : Session) : List Deed :=
  if s.output.isEmpty && s.outcome.isNone then s.cycleDeeds cycles else []

end Session

/-- A session with what has happened in it: the statements that were performed and the events that
the host was told, both in order. -/
structure History where
  session : Session
  deeds : List Deed
  events : List Event

/-- The history of a session in which nothing has happened yet. -/
def Session.history (s : Session) : History :=
  ⟨s, [], []⟩

namespace History

/-- One act of the host. -/
def act (history : History) : Act → History
  | .execute cycles =>
    ⟨(history.session.execute cycles).2,
      history.deeds ++ history.session.executeDeeds cycles,
      history.events ++ [(history.session.execute cycles).1]⟩
  | .answer reply => { history with session := history.session.answer reply }
  | .interrupt => { history with session := history.session.interrupt }
  | .setClock clock => { history with session := { history.session with clock } }

/-- Some acts of the host, in order. -/
def run (history : History) (acts : List Act) : History :=
  acts.foldl act history

/-- One cycle of an open run. -/
def turn (history : History) : History :=
  ⟨history.session.turn.2, history.deeds ++ history.session.deed?.toList,
    history.events ++ history.session.turn.1.toList⟩

end History

open Session Effect

/-! ## One statement -/

namespace Session

variable {s : Session} {deed : Deed}

/-- Afterwards no text waits to be delivered. -/
theorem deliver_snd (s : Session) : s.deliver.2 = { s with output := "" } := by
  rcases s.deliver_cases with ⟨nothing, empty⟩ | ⟨text, -⟩
  · rw [nothing, ← String.isEmpty_iff.mp empty]
  · rw [text]

/-- The end of a run closes the session and delivers what is left of its text. -/
theorem stop_snd (s : Session) (outcome : Outcome) :
    (s.stop outcome).2 = { s.close outcome with output := "" } := by
  show (s.finish outcome).2 = _
  rcases s.finish_cases outcome with ⟨stopped, empty⟩ | print
  · rw [stopped, ← String.isEmpty_iff.mp empty]
    rfl
  · rw [print]

/-- After an event no text waits to be delivered. -/
theorem Told.isEmpty {event : Event} (told : s.Told event) : s.output.isEmpty := by
  cases event with
  | running => exact told.1
  | print text => exact told
  | input prompt => exact told.1.1
  | stopped outcome => exact told.1

/-- The statement that is performed next is the one at or after the place of the session. -/
theorem deed?_eq_some :
    s.deed? = some deed ↔
      s.interrupted = false ∧
        s.program.statement? s.place = some (deed.place, deed.statement) ∧
        deed.session = { s with place := deed.place } := by
  obtain ⟨session, statement⟩ := deed
  unfold deed?
  by_cases interrupted : s.interrupted
  · simp [interrupted]
  · rw [if_neg interrupted, Option.map_eq_some_iff]
    constructor
    · rintro ⟨⟨here, other⟩, found, same⟩
      cases same
      exact ⟨Bool.eq_false_iff.mpr interrupted, found, rfl⟩
    · rintro ⟨-, found, same⟩
      exact ⟨_, found, congrArg (Deed.mk · statement) same.symm⟩

/-- No text waits when a statement of an open run is performed. -/
theorem output_of_deed? (isOpen : s.Open) (h : s.deed? = some deed) :
    deed.session.output = "" := by
  rw [(deed?_eq_some.mp h).2.2]
  exact String.isEmpty_iff.mp isOpen.1

/-- A cycle goes on as the statement it performs says. -/
theorem turn_of_deed? (h : s.deed? = some deed) : s.turn = follow deed.result deed.left := by
  obtain ⟨quiet, found, same⟩ := deed?_eq_some.mp h
  have stepped : step s = (deed.result, deed.left) := by
    rw [step_of_statement? found, ← same]
    rfl
  exact turn_of_step (by rw [quiet]; exact Bool.false_ne_true) stepped

/-- How a run ends that has no statement to perform. -/
def ending (s : Session) : Outcome :=
  if s.interrupted then .broken s.line? else .ended

/-- A cycle without a statement ends the run. -/
theorem turn_of_no_deed (h : s.deed? = none) :
    s.turn = stop s.ending { s with interrupted := false } := by
  unfold deed? at h
  by_cases interrupted : s.interrupted
  · rw [turn, ending, if_pos interrupted, if_pos interrupted]
  · rw [if_neg interrupted, Option.map_eq_none_iff] at h
    have stepped : step s = (.ok .finish, s) := by
      unfold step
      rw [bind_of_ok (x := Effect.get _) rfl, h]
      rfl
    rw [turn_of_step interrupted stepped, ending, if_neg interrupted,
      ← Bool.eq_false_iff.mpr interrupted]
    rfl

end Session

namespace Deed

/-- A deed in a sound session of a program, at its place in the program. -/
structure Sound (program : Program) (config : Config) (deed : Deed) : Prop where
  session : Session.Sound program config deed.session
  stands : program.statementAt? deed.place = some deed.statement

variable {program : Program} {config : Config} {s : Session} {deed : Deed}

/-- What a session performs next is a deed at its place in the program. -/
theorem sound_of_deed? (standing : Standing program config s) (h : s.deed? = some deed) :
    deed.Sound program config := by
  obtain ⟨-, found, same⟩ := deed?_eq_some.mp h
  refine ⟨?_, ?_⟩
  · rw [same]
    exact standing.toSound.moveTo deed.place
  · rw [← standing.program_eq]
    exact Program.statementAt?_of_statement? found

/-- A statement changes its footprint at most. -/
theorem Sound.only (formed : program.Formed) (sound : deed.Sound program config) :
    Only deed.statement.footprint deed.session deed.left := by
  rcases perform_cases formed sound.stands sound.session with ⟨prompt, asks⟩ | ⟨-, only, -⟩
  · have same : deed.left = deed.session := congrArg Prod.snd asks
    rw [same]
    exact Std.Refl.refl _
  · exact only

/-- No statement changes other parts than those that statements may change. -/
theorem Sound.unchanged (formed : program.Formed) (sound : deed.Sound program config) (part : Part)
    (outside : part ∉ statementParts) : part.Same deed.session deed.left :=
  sound.only formed part fun inside => outside (footprint_subset _ inside)

/-- A statement fails with ordinary faults only. -/
theorem Sound.ordinary (formed : program.Formed) (sound : deed.Sound program config) {fault : Fault}
    (failed : deed.result = .error fault) : fault.Ordinary := by
  unfold result at failed
  rcases perform_cases formed sound.stands sound.session with ⟨prompt, asks⟩ | ⟨-, -, settled⟩
  · rw [asks] at failed
    cases failed
  · rw [failed] at settled
    exact settled

/-- A statement either says where the run goes on or how it ends, and the cycle does what the
statement says. -/
theorem Sound.follow_cases (formed : program.Formed) (sound : deed.Sound program config)
    (empty : deed.session.output = "") :
    (∃ target, deed.goal? = some target ∧ deed.outcome? = none ∧
        (follow deed.result deed.left).2 = { deed.left with place := target, output := "" }) ∨
      ∃ outcome, deed.goal? = none ∧ deed.outcome? = some outcome ∧
        (follow deed.result deed.left).2 = { deed.left.close outcome with output := "" } := by
  have samePlace : deed.left.place = deed.place := sound.unchanged formed .place (by decide)
  have sameProgram : deed.left.program = deed.session.program :=
    sound.unchanged formed .program (by decide)
  have sameLine : deed.left.line? = deed.session.line? := by
    unfold line?
    rw [samePlace, sameProgram]
    rfl
  unfold goal? outcome?
  cases result : deed.result with
  | error fault =>
      refine .inr ⟨_, rfl, rfl, ?_⟩
      rw [← sameLine]
      exact stop_snd _ _
  | ok course =>
      cases course with
      | next =>
          refine .inl ⟨_, rfl, rfl, ?_⟩
          rw [← samePlace]
          exact deliver_snd _
      | jump target => exact .inl ⟨_, rfl, rfl, deliver_snd _⟩
      | ask prompt =>
          refine .inl ⟨_, rfl, rfl, ?_⟩
          -- what waits for a reply changes nothing, so there is nothing to deliver either
          have same : deed.left = deed.session := by
            unfold Deed.result at result
            rcases perform_cases formed sound.stands sound.session with
              ⟨other, asks⟩ | ⟨-, -, settled⟩
            · exact congrArg Prod.snd asks
            · rw [result] at settled
              exact settled.elim
          rw [same, ← empty]
          rfl
      | finish => exact .inr ⟨_, rfl, rfl, stop_snd _ _⟩
      | stop =>
          refine .inr ⟨_, rfl, rfl, ?_⟩
          rw [← sameLine]
          exact stop_snd _ _

end Deed

/-- A cycle whose statement does not end the run goes on where the statement says. -/
theorem Session.turn_of_goal? {program : Program} {config : Config} {s : Session} {deed : Deed}
    {target : Address} (formed : program.Formed) (standing : Standing program config s)
    (isOpen : s.Open) (performed : s.deed? = some deed) (goes : deed.goal? = some target) :
    s.turn.2 = { deed.left with place := target, output := "" } := by
  have sound := Deed.sound_of_deed? standing performed
  rw [turn_of_deed? performed]
  rcases sound.follow_cases formed (output_of_deed? isOpen performed) with
    ⟨other, leads, -, same⟩ | ⟨_, none, -, -⟩
  · rw [goes] at leads
    obtain rfl := Option.some.inj leads
    exact same
  · rw [goes] at none
    cases none

/-! ## Histories hang together -/

/-- The parts of a session that a host changes without running it. -/
def callerParts : List Part :=
  [.clock, .reply, .interrupted]

/-- Some statements have been performed one after the other since the session was `start`, each one
where the one before it has led, and have led to `s`. -/
inductive Leads (start : Session) : List Deed → Session → Prop
  | start {s : Session} (only : Only callerParts start s) : Leads start [] s
  | deed {deeds : List Deed} {deed : Deed} {target : Address} {s t : Session}
      (before : Leads start deeds s) (performed : s.deed? = some deed)
      (goes : deed.goal? = some target)
      (only : Only callerParts { deed.left with place := target, output := "" } t) :
      Leads start (deeds ++ [deed]) t

/-- What a run has come to: it goes on, or it has ended because there was no statement to perform,
or because the last statement has ended it. -/
inductive Account (start : Session) : List Deed → Session → Prop
  | going {deeds : List Deed} {s : Session} (leads : Leads start deeds s) : Account start deeds s
  | halted {deeds : List Deed} {s t : Session} (leads : Leads start deeds s)
      (nothing : s.deed? = none) (only : Only callerParts (s.close s.ending) t) :
      Account start deeds t
  | ended {deeds : List Deed} {deed : Deed} {outcome : Outcome} {s t : Session}
      (leads : Leads start deeds s) (performed : s.deed? = some deed)
      (ends : deed.outcome? = some outcome)
      (only : Only callerParts { deed.left.close outcome with output := "" } t) :
      Account start (deeds ++ [deed]) t

/-- A session in which a run of a program begins. -/
structure Begins (program : Program) (config : Config) (s : Session) : Prop where
  formed : program.Formed
  standing : Standing program config s
  isOpen : s.Open

/-- A source that is loaded begins a run of its program. -/
theorem exists_begins {source : String} {config : Config} {clock : Clock} {s : Session}
    (loaded : Session.load source config clock = .ok s) :
    ∃ program, Program.load source = .ok program ∧ s = start program config clock ∧
      Begins program config s := by
  obtain ⟨program, read, same⟩ := exists_of_bind_eq_ok loaded
  cases same
  exact ⟨program, read, rfl, Program.formed_of_load read, standing_start program config clock, rfl,
    rfl⟩

section Account

variable {program : Program} {config : Config} {start s t : Session} {deeds : List Deed}

/-- An open run stays open until it is run. -/
theorem Session.Open.caller (isOpen : s.Open) (only : Only callerParts s t) : t.Open := by
  have sameOutput : t.output = s.output := only .output (by decide)
  have sameOutcome : t.outcome = s.outcome := only .outcome (by decide)
  unfold Open
  rw [sameOutput, sameOutcome]
  exact isOpen

/-- What a host does without running the session does not change what has led to it. -/
theorem Leads.caller (leads : Leads start deeds s) (only : Only callerParts s t) :
    Leads start deeds t := by
  cases leads with
  | start first => exact .start (IsTrans.trans _ _ _ first only)
  | deed before performed goes last =>
      exact .deed before performed goes (IsTrans.trans _ _ _ last only)

/-- What a host does without running the session does not change what the run has come to. -/
theorem Account.caller (account : Account start deeds s) (only : Only callerParts s t) :
    Account start deeds t := by
  cases account with
  | going leads => exact .going (leads.caller only)
  | halted leads nothing last => exact .halted leads nothing (IsTrans.trans _ _ _ last only)
  | ended leads performed ends last =>
      exact .ended leads performed ends (IsTrans.trans _ _ _ last only)

/-- In a run that has not ended, all statements have led on. -/
theorem Account.leads (account : Account start deeds s) (goes : s.outcome = none) :
    Leads start deeds s := by
  cases account with
  | going leads => exact leads
  | halted leads nothing only =>
      have same : s.outcome = some _ := only .outcome (by decide)
      rw [goes] at same
      cases same
  | ended leads performed ends only =>
      have same : s.outcome = some _ := only .outcome (by decide)
      rw [goes] at same
      cases same

/-- One more cycle of an open run. -/
theorem Leads.turn (formed : program.Formed) (standing : Standing program config s)
    (isOpen : s.Open) (leads : Leads start deeds s) :
    Account start (deeds ++ s.deed?.toList) s.turn.2 := by
  have empty : s.output = "" := String.isEmpty_iff.mp isOpen.1
  cases performed : s.deed? with
  | none =>
      rw [turn_of_no_deed performed, stop_snd, Option.toList_none, List.append_nil]
      refine .halted leads performed fun part => ?_
      cases part <;> simp [close, callerParts, empty]
  | some deed =>
      have sound := Deed.sound_of_deed? standing performed
      have quiet := output_of_deed? isOpen performed
      rw [turn_of_deed? performed, Option.toList_some]
      rcases sound.follow_cases formed quiet with
        ⟨target, goes, -, same⟩ | ⟨outcome, -, ends, same⟩
      · rw [same]
        exact .going (.deed leads performed goes (Std.Refl.refl _))
      · rw [same]
        exact .ended leads performed ends (Std.Refl.refl _)

/-- A run that goes on is open and keeps the invariant of runs. -/
theorem Leads.standing (begins : Begins program config start) (leads : Leads start deeds s) :
    Standing program config s ∧ s.Open := by
  induction leads with
  | start only =>
      exact ⟨begins.standing.of_only (only.mono (by decide)), begins.isOpen.caller only⟩
  | @deed deeds deed target s t before performed goes only ih =>
      obtain ⟨standing, isOpen⟩ := ih
      have session := (deed?_eq_some.mp performed).2.2
      have formed := begins.formed
      have sound := Deed.sound_of_deed? standing performed
      have kept := standing.turn formed
      rw [turn_of_goal? formed standing isOpen performed goes] at kept
      have sameOutput : t.output = "" := only .output (by decide)
      have sameOutcome : t.outcome = deed.left.outcome := only .outcome (by decide)
      have leftOutcome : deed.left.outcome = deed.session.outcome :=
        sound.unchanged formed .outcome (by decide)
      refine ⟨kept.of_only (only.mono (by decide)), ?_, ?_⟩
      · rw [sameOutput]
        rfl
      · rw [sameOutcome, leftOutcome, session]
        exact isOpen.2

/-- Performing a statement does not change the program. -/
theorem left_program_of_deed? (begins : Begins program config start) {deed : Deed}
    (leads : Leads start deeds s) (performed : s.deed? = some deed) :
    deed.left.program = s.program := by
  have standing := (leads.standing begins).1
  have sound := Deed.sound_of_deed? standing performed
  have same : deed.left.program = deed.session.program :=
    sound.unchanged begins.formed .program (by decide)
  rw [same, sound.session.program_eq, standing.program_eq]

/-- The run has gone on at a place: the next statement that was performed is the one there or, if
there is none, the first one after it; if none has been performed yet, the session stands there. -/
def GoesOnAt (target : Address) (later : List Deed) (s : Session) : Prop :=
  match later with
  | [] => s.place = target
  | next :: _ => s.program.statement? target = some (next.place, next.statement)

namespace GoesOnAt

variable {target : Address} {later : List Deed}

/-- Where a run has gone on depends on the program and the place alone. -/
theorem of_same (h : GoesOnAt target later s) (program : t.program = s.program)
    (place : t.place = s.place) : GoesOnAt target later t := by
  cases later with
  | nil => exact place.trans h
  | cons next rest =>
      unfold GoesOnAt
      rw [program]
      exact h

/-- The next statement is the first one that is performed afterwards. -/
theorem append (h : GoesOnAt target later s) {deed : Deed} (performed : s.deed? = some deed)
    (program : t.program = s.program) : GoesOnAt target (later ++ [deed]) t := by
  cases later with
  | nil =>
      have found := (deed?_eq_some.mp performed).2.1
      rw [show s.place = target from h, ← program] at found
      exact found
  | cons next rest =>
      show t.program.statement? target = _
      rw [program]
      exact h

end GoesOnAt

variable {front back : List Deed} {deed : Deed}

/-- One of some statements is the last one or comes before it. -/
theorem cases_of_eq_append_last {last : Deed} (whole : front ++ deed :: back = deeds ++ [last]) :
    (back = [] ∧ front = deeds ∧ deed = last) ∨
      ∃ rest, back = rest ++ [last] ∧ deeds = front ++ deed :: rest := by
  rcases List.eq_nil_or_concat back with rfl | ⟨rest, final, rfl⟩
  · obtain ⟨same, ends⟩ := List.append_inj' whole rfl
    exact .inl ⟨rfl, same, List.head_eq_of_cons_eq ends⟩
  · rw [List.concat_eq_append, ← List.cons_append, ← List.append_assoc] at whole
    obtain ⟨same, ends⟩ := List.append_inj' whole rfl
    cases ends
    exact .inr ⟨rest, List.concat_eq_append, same.symm⟩

/-- Each statement was performed where those before it have led, and the run has gone on where it
has led. -/
theorem Leads.split (begins : Begins program config start)
    (leads : Leads start (front ++ deed :: back) s) :
    ∃ u target, Leads start front u ∧ u.deed? = some deed ∧ deed.goal? = some target ∧
      GoesOnAt target back s := by
  generalize whole : front ++ deed :: back = deeds at leads
  induction leads generalizing back with
  | start only => simp at whole
  | @deed deeds last target s t before performed goes only ih =>
      -- the statement is the last one, or the run up to it is split already
      rcases cases_of_eq_append_last whole with ⟨rfl, rfl, rfl⟩ | ⟨rest, rfl, rfl⟩
      · exact ⟨s, target, before, performed, goes, only .place (by decide)⟩
      · obtain ⟨u, goal, leads, found, leadsTo, goesOn⟩ := ih rfl
        have kept : t.program = last.left.program := only .program (by decide)
        have sameProgram : t.program = s.program :=
          kept.trans (left_program_of_deed? begins before performed)
        exact ⟨u, goal, leads, found, leadsTo, goesOn.append performed sameProgram⟩

/-- The same for a run that may have ended: its last statement may have ended it. -/
theorem Account.split (begins : Begins program config start)
    (account : Account start (front ++ deed :: back) s) :
    ∃ u, Leads start front u ∧ u.deed? = some deed ∧
      ((∃ target, deed.goal? = some target ∧ GoesOnAt target back s) ∨
        ∃ outcome, deed.outcome? = some outcome ∧ back = [] ∧ s.outcome = some outcome) := by
  generalize whole : front ++ deed :: back = deeds at account
  cases account with
  | going leads =>
      rw [← whole] at leads
      obtain ⟨u, target, leads, found, goes, goesOn⟩ := leads.split begins
      exact ⟨u, leads, found, .inl ⟨target, goes, goesOn⟩⟩
  | @halted _ before _ leads nothing only =>
      rw [← whole] at leads
      obtain ⟨u, target, leads, found, goes, goesOn⟩ := leads.split begins
      have samePlace : s.place = before.place := only .place (by decide)
      have sameProgram : s.program = before.program := only .program (by decide)
      exact ⟨u, leads, found, .inl ⟨target, goes, goesOn.of_same sameProgram samePlace⟩⟩
  | @ended deeds last outcome before _ leads performed ends only =>
      rcases cases_of_eq_append_last whole with ⟨rfl, rfl, rfl⟩ | ⟨rest, rfl, rfl⟩
      · exact ⟨before, leads, performed, .inr ⟨outcome, ends, rfl, only .outcome (by decide)⟩⟩
      · have kept : s.program = last.left.program := only .program (by decide)
        have sameProgram : s.program = before.program :=
          kept.trans (left_program_of_deed? begins leads performed)
        obtain ⟨u, target, leads, found, goes, goesOn⟩ := leads.split begins
        exact ⟨u, leads, found, .inl ⟨target, goes, goesOn.append performed sameProgram⟩⟩

end Account

/-! ## All histories -/

/-- An act other than running the session changes what the host may change, but takes no interrupt
back, and is not noted. -/
theorem History.exists_of_act (history : History) {act : Act} (noRun : act.isExecute = false) :
    ∃ t, history.act act = { history with session := t } ∧ Only callerParts history.session t ∧
      (history.session.interrupted → t.interrupted) := by
  cases act with
  | execute cycles => cases noRun
  | answer reply => exact ⟨_, rfl, (only_answer _ reply).mono (by decide), id⟩
  | interrupt => exact ⟨_, rfl, (only_interrupt _).mono (by decide), fun _ => rfl⟩
  | setClock clock => exact ⟨_, rfl, (only_setClock _ clock).mono (by decide), id⟩

/-- A property of histories that is kept when the session is run: by a cycle of an open run and by
an event that tells of no text. -/
structure Advancing (program : Program) (config : Config) (J : History → Prop) : Prop where
  turn : ∀ {history : History}, Standing program config history.session → history.session.Open →
    J history → J history.turn
  tell : ∀ {history : History} {event : Event}, (∀ text, event ≠ .print text) → J history →
    J { history with events := history.events ++ [event] }

namespace Advancing

variable {program : Program} {config : Config} {J : History → Prop}

/-- What a cycle and an event keep is kept by any number of cycles. -/
theorem cycle (formed : program.Formed) (advancing : Advancing program config J) {s : Session}
    {deeds : List Deed} {events : List Event} (standing : Standing program config s)
    (isOpen : s.Open) (holds : J ⟨s, deeds, events⟩) (cycles : Nat) :
    J ⟨(s.cycle cycles).2, deeds ++ s.cycleDeeds cycles, events ++ [(s.cycle cycles).1]⟩ := by
  induction cycles generalizing s deeds events with
  | zero =>
      simp only [Session.cycle, cycleDeeds, List.append_nil]
      exact advancing.tell (fun _ same => by cases same) holds
  | succ cycles ih =>
      have kept := advancing.turn standing isOpen holds
      have left := standing.turn formed
      rcases turn_told formed standing isOpen with ⟨t, goes, stillOpen⟩ | ⟨event, t, told, -, -⟩
      · simp only [History.turn, goes, Option.toList_none, List.append_nil] at kept left
        simp only [Session.cycle, cycleDeeds, goes, ← List.append_assoc]
        exact ih left stillOpen kept
      · simp only [History.turn, told, Option.toList_some] at kept
        simp only [Session.cycle, cycleDeeds, told, List.append_nil]
        exact kept

/-- What a cycle and an event keep is kept when the host runs the session. -/
theorem execute (formed : program.Formed) (advancing : Advancing program config J)
    {history : History} (standing : Standing program config history.session)
    (empty : history.session.output.isEmpty) (holds : J history) (cycles : Nat) :
    J (history.act (.execute cycles)) := by
  unfold History.act executeDeeds
  -- no text waits between two acts, so statements are performed unless the run has ended
  rcases history.session.execute_cases with
    ⟨waits, -⟩ | ⟨-, outcome, ended, stopped⟩ | ⟨-, going, runs⟩
  · exact absurd empty waits
  · simp only [ended, stopped, Option.isNone_some, Bool.and_false, Bool.false_eq_true, if_false,
      List.append_nil]
    exact advancing.tell (fun _ same => by cases same) holds
  · simp only [empty, going, runs, Option.isNone_none, Bool.and_true, if_true]
    exact advancing.cycle formed standing ⟨empty, going⟩ holds cycles

/-- What is kept when the session is run holds at the end of a history if the other acts keep it,
too. -/
theorem run (advancing : Advancing program config J) {s : Session}
    (begins : Begins program config s) (holds : J s.history) (acts : List Act)
    (calls : ∀ act ∈ acts, act.isExecute = false → ∀ history : History, J history →
      J (history.act act)) :
    Standing program config (s.history.run acts).session ∧
      (s.history.run acts).session.output.isEmpty ∧ J (s.history.run acts) := by
  have runs : ∀ history : History, Standing program config history.session →
      history.session.output.isEmpty → J history →
      Standing program config (history.run acts).session ∧
        (history.run acts).session.output.isEmpty ∧ J (history.run acts) := by
    induction acts with
    | nil => exact fun history standing empty holds => ⟨standing, empty, holds⟩
    | cons act rest ih =>
        intro history standing empty holds
        have later := ih fun act inside => calls act (List.mem_cons_of_mem _ inside)
        cases runs : act.isExecute with
        | false =>
            have kept := calls act List.mem_cons_self runs history holds
            obtain ⟨t, acted, only, -⟩ := history.exists_of_act runs
            have same : t.output = history.session.output := only .output (by decide)
            refine later (history.act act) ?_ ?_ kept
            · rw [acted]
              exact standing.of_only (only.mono (by decide))
            · rw [acted]
              show t.output.isEmpty
              rw [same]
              exact empty
        | true =>
            obtain ⟨cycles, rfl⟩ := Act.exists_of_isExecute runs
            exact later _ (standing.execute begins.formed cycles)
              (execute_told begins.formed standing cycles).isEmpty
              (advancing.execute begins.formed standing empty holds cycles)
  exact runs s.history begins.standing begins.isOpen.1 holds

end Advancing

/-- A property of histories that is kept as a run goes on, also by what the host changes in
between. -/
structure Lasting (program : Program) (config : Config) (J : History → Prop) : Prop
    extends Advancing program config J where
  caller : ∀ {history : History} {t : Session}, Only callerParts history.session t → J history →
    J { history with session := t }

/-- Whatever the host does keeps a lasting property. -/
theorem Lasting.run {program : Program} {config : Config} {J : History → Prop}
    (lasting : Lasting program config J) {s : Session} (begins : Begins program config s)
    (holds : J s.history) (acts : List Act) :
    Standing program config (s.history.run acts).session ∧
      (s.history.run acts).session.output.isEmpty ∧ J (s.history.run acts) := by
  refine lasting.toAdvancing.run begins holds acts fun act _ noRun history kept => ?_
  obtain ⟨t, acted, only, -⟩ := history.exists_of_act noRun
  rw [acted]
  exact lasting.caller only kept

variable {program : Program} {config : Config} {s : Session}

/-- Every history hangs together. -/
theorem account_run (begins : Begins program config s) (acts : List Act) :
    Account s (s.history.run acts).deeds (s.history.run acts).session := by
  have lasting : Lasting program config fun history =>
      Account s history.deeds history.session :=
    { turn := fun standing isOpen account =>
        (account.leads isOpen.2).turn begins.formed standing isOpen
      tell := fun _ account => account
      caller := fun only account => account.caller only }
  exact (lasting.run begins (.going (.start (Std.Refl.refl s))) acts).2.2

/-- The invariant of runs holds at the end of every history. -/
theorem standing_run (begins : Begins program config s) (acts : List Act) :
    Standing program config (s.history.run acts).session ∧
      (s.history.run acts).session.output.isEmpty := by
  have lasting : Lasting program config fun _ => True :=
    { turn := fun _ _ _ => trivial
      tell := fun _ _ => trivial
      caller := fun _ _ => trivial }
  obtain ⟨standing, empty, -⟩ := lasting.run begins trivial acts
  exact ⟨standing, empty⟩

end NumberedBasic
