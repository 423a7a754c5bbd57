import Mathlib.Logic.Function.Iterate
import NumberedBasic.Proofs.SessionInvariant

/-!
# What a run does not depend on

How many statements a session is asked to run at a time, and how often it is polled while it waits
for a reply, makes no difference to what the host is told.

`execute_add` is the law for one session: a budget may be split in two. For whole runs, `Host` is a
host that supplies replies from a list and notes what it is told. Whatever it calls, it gets to a
point of one sequence of smallest steps (`Host.exists_iterate_run`), so of two hosts one is ahead of
the other.
-/

set_option autoImplicit false

namespace NumberedBasic

namespace Session

variable {program : Program} {config : Config} {s t : Session}

/-- Running an open session performs statements. -/
theorem Open.execute_eq (h : s.Open) (cycles : Nat) : s.execute cycles = s.cycle cycles := by
  rcases s.execute_cases with ⟨nonempty, -⟩ | ⟨-, outcome, ended, -⟩ | ⟨-, -, runs⟩
  · exact absurd h.1 nonempty
  · rw [h.2] at ended
    cases ended
  · exact runs cycles

/-- A session that asks for a reply goes on asking and does not change. -/
theorem execute_of_asks {prompt : String} (h : s.Told (.input prompt)) (cycles : Nat)
    (positive : 0 < cycles) : s.execute cycles = (.input prompt, s) := by
  obtain ⟨n, rfl⟩ := Nat.exists_eq_add_one.mpr positive
  rw [h.1.execute_eq, cycle, h.2]

/-- A session that has stopped goes on saying so and does not change. -/
theorem execute_of_stopped {outcome : Outcome} (h : s.Told (.stopped outcome)) (cycles : Nat) :
    s.execute cycles = (.stopped outcome, s) := by
  rcases s.execute_cases with ⟨nonempty, -⟩ | ⟨-, other, ended, stopped⟩ | ⟨-, going, -⟩
  · exact absurd h.1 nonempty
  · rw [h.2] at ended
    cases ended
    exact stopped cycles
  · rw [h.2] at going
    cases going

/-- Statements may be performed in two parts, of which the second one is performed if the first one
has led to no event. -/
theorem cycle_add (formed : program.Formed) (standing : Standing program config s)
    (isOpen : s.Open) (a b : Nat) :
    s.cycle (a + b) =
      if (s.cycle a).1 = .running then (s.cycle a).2.cycle b else s.cycle a := by
  induction a generalizing s with
  | zero =>
      rw [Nat.zero_add]
      rfl
  | succ a ih =>
      rw [Nat.succ_add]
      rcases turn_told formed standing isOpen with
        ⟨t, goes, stillOpen⟩ | ⟨event, t, told, notRunning, -⟩
      · have kept := standing.turn formed
        rw [goes] at kept
        simp only [cycle, goes]
        exact ih kept stillOpen
      · simp only [cycle, told]
        rw [if_neg notRunning]

/-- A budget may be split in two: what is left of it is used if the first part has led to no
event. -/
theorem execute_add (formed : program.Formed) (standing : Standing program config s) (a b : Nat) :
    s.execute (a + b) =
      if (s.execute a).1 = .running then (s.execute a).2.execute b else s.execute a := by
  rcases s.execute_cases with ⟨-, print⟩ | ⟨-, outcome, -, stopped⟩ | ⟨empty, going, runs⟩
  · rw [print, print, if_neg nofun]
  · rw [stopped, stopped, if_neg nofun]
  · rw [runs, runs, cycle_add formed standing ⟨empty, going⟩]
    split
    next running =>
      have told := cycle_told formed standing ⟨empty, going⟩ a
      rw [running] at told
      rw [told.execute_eq]
    next => rfl

end Session

/-- A host with a session, the replies it has not supplied yet, the prompt it has been asked for one
with, and the events it has been told of. -/
structure Host where
  session : Session
  replies : List String
  asked : Option String
  events : List Event

namespace Host

/-- A host that has been told nothing yet. -/
def start (session : Session) (replies : List String) : Host :=
  ⟨session, replies, none, []⟩

/-- The host after it has been told of an event. That the session is running is not noted, nor is a
reply that is asked for again with the same prompt. -/
def note (host : Host) (event : Event) (session : Session) : Host :=
  match event with
  | .running => { host with session }
  | .input prompt =>
    if host.asked = some prompt then { host with session }
    else { host with session, asked := some prompt, events := host.events ++ [event] }
  | .print _ | .stopped _ => { host with session, events := host.events ++ [event] }

/-- Runs the session. -/
def execute (host : Host) (cycles : Nat) : Host :=
  host.note (host.session.execute cycles).1 (host.session.execute cycles).2

/-- Supplies the next reply, if one has been asked for and there is one. -/
def reply (host : Host) : Host :=
  match host.asked, host.replies with
  | some _, text :: rest =>
    { host with session := host.session.answer text, replies := rest, asked := none }
  | _, _ => host

/-- What a host may do: run the session for at least one statement, or supply a reply. -/
inductive Call where
  | execute (cycles : Nat) (positive : 0 < cycles)
  | reply

/-- The host after a call. -/
def call (host : Host) : Call → Host
  | .execute cycles _ => host.execute cycles
  | .reply => host.reply

/-- The host after some calls. -/
def run (host : Host) (calls : List Call) : Host :=
  calls.foldl call host

/-- The smallest step of a host: it supplies a reply when it has been asked for one, and runs one
statement otherwise. -/
def advance (host : Host) : Host :=
  if host.asked.isSome then host.reply else host.execute 1

variable {program : Program} {config : Config} {host : Host}

/-- What a host has been told is so: while it has been asked for a reply the session asks for one,
and after it has been told that the run has stopped the run is over. -/
structure Informed (program : Program) (config : Config) (host : Host) : Prop where
  formed : program.Formed
  standing : Session.Standing program config host.session
  asked : ∀ prompt, host.asked = some prompt → host.session.Told (.input prompt)
  ended : ∀ outcome, .stopped outcome ∈ host.events →
    host.asked = none ∧ host.session.Told (.stopped outcome)

/-- Polling a session while it waits for a reply makes no difference. -/
theorem Informed.execute_of_asked (informed : Informed program config host) {prompt : String}
    (asked : host.asked = some prompt) {cycles : Nat} (positive : 0 < cycles) :
    host.execute cycles = host := by
  unfold Host.execute
  rw [Session.execute_of_asks (informed.asked prompt asked) cycles positive]
  exact if_pos asked

/-- A host that is told of an event stays informed, if the event fits the session and nothing but
the end of a run is told of a run that is over. -/
theorem Informed.note (informed : Informed program config host) (busy : host.asked = none)
    {event : Event} {session : Session} (kept : Session.Standing program config session)
    (told : session.Told event)
    (ended : ∀ outcome, .stopped outcome ∈ host.events → event = .stopped outcome) :
    Informed program config (host.note event session) := by
  have unasked : ∀ prompt, host.asked = some prompt → session.Told (.input prompt) := by
    intro prompt asked
    rw [busy] at asked
    cases asked
  cases event with
  | running =>
      -- Nothing but the end of a run is told once that has been noted.
      refine ⟨informed.formed, kept, unasked, fun outcome noted => ?_⟩
      cases ended outcome noted
  | input prompt =>
      have first : host.asked ≠ some prompt := by
        rw [busy]
        nofun
      unfold Host.note
      dsimp only
      rw [if_neg first]
      refine ⟨informed.formed, kept, fun other same => ?_, fun outcome noted => ?_⟩
      · obtain rfl := Option.some.inj same
        exact told
      · rcases List.mem_append.mp noted with before | now
        · cases ended outcome before
        · simp at now
  | print text =>
      refine ⟨informed.formed, kept, unasked, fun outcome noted => ?_⟩
      rcases List.mem_append.mp noted with before | now
      · cases ended outcome before
      · simp at now
  | stopped other =>
      refine ⟨informed.formed, kept, unasked, fun outcome noted => ?_⟩
      rcases List.mem_append.mp noted with before | now
      · cases ended outcome before
        exact ⟨busy, told⟩
      · cases List.mem_singleton.mp now
        exact ⟨busy, told⟩

/-- Running the session leaves a host informed. -/
theorem Informed.execute (informed : Informed program config host) {cycles : Nat}
    (positive : 0 < cycles) : Informed program config (host.execute cycles) := by
  cases asked : host.asked with
  | some prompt =>
      rw [informed.execute_of_asked asked positive]
      exact informed
  | none =>
      have told := Session.execute_told informed.formed informed.standing cycles
      have kept := informed.standing.execute informed.formed cycles
      have ended : ∀ outcome, .stopped outcome ∈ host.events →
          (host.session.execute cycles).1 = .stopped outcome := by
        intro outcome noted
        rw [Session.execute_of_stopped (informed.ended outcome noted).2 cycles]
      exact informed.note asked kept told ended

/-- Replying to the session leaves a host informed. -/
theorem Informed.reply (informed : Informed program config host) :
    Informed program config host.reply := by
  unfold Host.reply
  split
  · next prompt text rest asked _ =>
      refine ⟨informed.formed, informed.standing.answer text, nofun, fun outcome noted => ?_⟩
      rw [(informed.ended outcome noted).1] at asked
      cases asked
  · exact informed

/-- Every call of a host leaves it informed. -/
theorem Informed.call (informed : Informed program config host) (call : Call) :
    Informed program config (host.call call) := by
  cases call with
  | execute cycles positive => exact informed.execute positive
  | reply => exact informed.reply

/-- The smallest step of a host leaves it informed. -/
theorem Informed.advance (informed : Informed program config host) :
    Informed program config host.advance := by
  unfold Host.advance
  split
  · exact informed.reply
  · exact informed.execute Nat.one_pos

/-- Being told of an event only adds to what has been noted. -/
theorem prefix_note (host : Host) (event : Event) (session : Session) :
    host.events <+: (host.note event session).events := by
  cases event with
  | running => exact List.prefix_rfl
  | print text => exact List.prefix_append _ _
  | stopped outcome => exact List.prefix_append _ _
  | input prompt =>
      unfold note
      dsimp only
      split
      · exact List.prefix_rfl
      · exact List.prefix_append _ _

/-- The smallest step of a host adds to what has been noted. -/
theorem prefix_advance (host : Host) : host.events <+: host.advance.events := by
  unfold advance
  split
  · unfold reply
    split
    · exact List.prefix_rfl
    · exact List.prefix_rfl
  · exact host.prefix_note _ _

/-- Smallest steps add to what has been noted. -/
theorem prefix_iterate_advance (host : Host) (n : Nat) :
    host.events <+: (advance^[n] host).events := by
  induction n generalizing host with
  | zero => exact List.prefix_rfl
  | succ n ih => exact host.prefix_advance.trans (ih host.advance)

/-- As long as nothing is asked, the smallest step performs one statement. -/
theorem advance_of_busy (busy : host.asked = none) : host.advance = host.execute 1 := by
  unfold advance
  rw [busy]
  rfl

/-- A run that is over is not changed by smallest steps. -/
theorem Informed.session_iterate_of_ended (informed : Informed program config host)
    {outcome : Outcome} (ended : .stopped outcome ∈ host.events) (n : Nat) :
    (Host.advance^[n] host).session = host.session := by
  induction n generalizing host with
  | zero => rfl
  | succ n ih =>
      obtain ⟨busy, told⟩ := informed.ended outcome ended
      have stays : host.advance = host.note (.stopped outcome) host.session := by
        rw [advance_of_busy busy, Host.execute, Session.execute_of_stopped told 1]
      have further := ih informed.advance (host.prefix_advance.subset ended)
      rw [stays] at further
      rw [Function.iterate_succ_apply, stays]
      exact further

/-- A host that has been told that its session is running is told of the rest as if it had not
been. -/
theorem note_note_running (host : Host) (event : Event) (between session : Session) :
    (host.note .running between).note event session = host.note event session := by
  cases event <;> rfl

/-- Running the session for some statements is a number of smallest steps. -/
theorem Informed.exists_iterate_execute (informed : Informed program config host) {cycles : Nat}
    (positive : 0 < cycles) : ∃ n, host.execute cycles = Host.advance^[n] host := by
  cases asked : host.asked with
  | some prompt => exact ⟨0, informed.execute_of_asked asked positive⟩
  | none =>
      obtain ⟨more, rfl⟩ := Nat.exists_eq_add_one.mpr positive
      clear positive
      induction more generalizing host with
      | zero => exact ⟨1, (advance_of_busy asked).symm⟩
      | succ more ih =>
          have first : host.advance = host.execute 1 := advance_of_busy asked
          have parts := Session.execute_add informed.formed informed.standing 1 (more + 1)
          rw [Nat.add_comm 1] at parts
          by_cases running : (host.session.execute 1).1 = .running
          · -- the first statement is a smallest step, and the others are the rest of the budget
            rw [if_pos running] at parts
            have told : host.advance = host.note .running (host.session.execute 1).2 := by
              rw [first, Host.execute, running]
            have busy : host.advance.asked = none := by
              rw [told]
              exact asked
            have rest : host.execute (more + 1 + 1) = host.advance.execute (more + 1) := by
              rw [Host.execute, Host.execute, parts, told, note_note_running]
              rfl
            obtain ⟨n, same⟩ := ih informed.advance busy
            exact ⟨n + 1, rest.trans same⟩
          · rw [if_neg running] at parts
            refine ⟨1, ?_⟩
            show _ = host.advance
            rw [first, Host.execute, Host.execute, parts]

/-- A call is a number of smallest steps. -/
theorem Informed.exists_iterate_call (informed : Informed program config host) (call : Call) :
    ∃ n, host.call call = Host.advance^[n] host := by
  cases call with
  | execute cycles positive => exact informed.exists_iterate_execute positive
  | reply =>
      cases asked : host.asked with
      | some prompt =>
          refine ⟨1, ?_⟩
          show host.reply = host.advance
          unfold Host.advance
          rw [asked]
          rfl
      | none =>
          refine ⟨0, ?_⟩
          show host.reply = host
          unfold Host.reply
          rw [asked]

/-- Whatever a host calls, it gets to a point of the sequence of smallest steps. -/
theorem Informed.exists_iterate_run (informed : Informed program config host)
    (calls : List Call) : ∃ n, host.run calls = Host.advance^[n] host := by
  induction calls generalizing host with
  | nil => exact ⟨0, rfl⟩
  | cons call calls ih =>
      obtain ⟨n, called⟩ := informed.exists_iterate_call call
      obtain ⟨m, ran⟩ := ih (informed.call call)
      refine ⟨m + n, ?_⟩
      show (host.call call).run calls = _
      rw [ran, called, Function.iterate_add_apply]

/-- A host that is informed stays so through all of its calls. -/
theorem Informed.run (informed : Informed program config host) (calls : List Call) :
    Informed program config (host.run calls) := by
  induction calls generalizing host with
  | nil => exact informed
  | cons call calls ih => exact ih (informed.call call)

/-- Of two hosts with the same session and the same replies, one is ahead of the other. -/
theorem Informed.ahead (informed : Informed program config host) (calls others : List Call) :
    (∃ n, host.run others = Host.advance^[n] (host.run calls)) ∨
      ∃ n, host.run calls = Host.advance^[n] (host.run others) := by
  obtain ⟨m, left⟩ := informed.exists_iterate_run calls
  obtain ⟨n, right⟩ := informed.exists_iterate_run others
  rcases Nat.le_total m n with le | le
  · obtain ⟨d, rfl⟩ := Nat.exists_eq_add_of_le le
    refine .inl ⟨d, ?_⟩
    rw [left, right, ← Function.iterate_add_apply, Nat.add_comm]
  · obtain ⟨d, rfl⟩ := Nat.exists_eq_add_of_le le
    refine .inr ⟨d, ?_⟩
    rw [left, right, ← Function.iterate_add_apply, Nat.add_comm]

/-- The host of a session that can be brought about is informed before its first call. -/
theorem exists_informed_start {session : Session} (reachable : session.Reachable)
    (replies : List String) :
    ∃ program config, Informed program config (start session replies) := by
  obtain ⟨program, config, formed, standing⟩ := reachable.standing
  exact ⟨program, config, formed, standing, nofun, nofun⟩

/-- What a host is told does not depend on how many statements it asks for at a time, nor on how
often it polls a session that waits for a reply. Of two hosts of one session that supply the same
replies, one has been told what the other has been told, and perhaps more; if both have been told
that the run has stopped, their sessions are the same. In particular a budget may be split in two,
and what is left of it after an event is not used. -/
theorem run_independent_of_budgets {session : Session} (reachable : session.Reachable) :
    (∀ (replies : List String) (calls others : List Call),
      let left := (start session replies).run calls
      let right := (start session replies).run others
      (left.events <+: right.events ∨ right.events <+: left.events) ∧
        ∀ outcome other, .stopped outcome ∈ left.events → .stopped other ∈ right.events →
          left.session = right.session) ∧
    ∀ a b, session.execute (a + b) =
      if (session.execute a).1 = .running then (session.execute a).2.execute b
      else session.execute a := by
  constructor
  · intro replies calls others left right
    obtain ⟨program, config, informed⟩ := exists_informed_start reachable replies
    rcases informed.ahead calls others with ⟨n, ahead⟩ | ⟨n, ahead⟩
    · have ahead : right = Host.advance^[n] left := ahead
      rw [ahead]
      refine ⟨.inl (prefix_iterate_advance _ n), fun outcome other ended _ => ?_⟩
      exact ((informed.run calls).session_iterate_of_ended ended n).symm
    · have ahead : left = Host.advance^[n] right := ahead
      rw [ahead]
      refine ⟨.inr (prefix_iterate_advance _ n), fun outcome other _ ended => ?_⟩
      exact (informed.run others).session_iterate_of_ended ended n
  · intro a b
    obtain ⟨program, config, formed, standing⟩ := reachable.standing
    exact Session.execute_add formed standing a b

/-- A program that asks for a text and prints it comes to the same end when it is run one statement
at a time, and polled while it waits, as when it is run without a pause. -/
theorem run_independent_of_budgets_echo :
    let one : Call := .execute 1 Nat.one_pos
    let many : Call := .execute 9 (Nat.succ_pos 8)
    ∃ session : Session, session.Reachable ∧
      let slow := (start session ["HI"]).run [one, one, .reply, one, one, one]
      let fast := (start session ["HI"]).run [many, .reply, many, many]
      .stopped .ended ∈ slow.events ∧ .stopped .ended ∈ fast.events ∧
        slow.session = fast.session := by
  intro one many
  let slow (session : Session) := (start session ["HI"]).run [one, one, .reply, one, one, one]
  let fast (session : Session) := (start session ["HI"]).run [many, .reply, many, many]
  let test (session : Session) : Bool :=
    decide (.stopped .ended ∈ (slow session).events) &&
      decide (.stopped .ended ∈ (fast session).events)
  obtain ⟨session, loaded, tested⟩ : ∃ session,
      Session.load "10 INPUT A$\n20 PRINT A$" { seed := 0 } ⟨2000, 1, 1, 0, 0, 0⟩ = .ok session ∧
        test session = true :=
    Session.exists_ok_of_any (by decide +kernel)
  simp only [test, Bool.and_eq_true, decide_eq_true_eq] at tested
  have reachable : session.Reachable := .load loaded
  refine ⟨session, reachable, tested.1, tested.2, ?_⟩
  exact ((run_independent_of_budgets reachable).1 _ _ _).2 _ _ tested.1 tested.2

end Host

end NumberedBasic
