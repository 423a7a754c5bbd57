import Mathlib.Data.Finset.Card
import Mathlib.Data.List.Nodup
import NumberedBasic.Proofs.EvaluationRules
import NumberedBasic.Proofs.NameTags
import NumberedBasic.Proofs.SessionInvariant

/-!
# Open loops

The loops a session has open are over different numeric variables, each one goes back to the place
after a `FOR` over its variable, and none has a step of zero (`Session.Nested`). The invariant is
kept because a `FOR` first leaves the open loop over its variable, together with those inside it,
and a `NEXT` only ever shortens the stack. Since the variables are different ones of the program's,
there are never more open loops than the program has loop variables, however long it runs
(`Nested.depth_le`). The main statement is `Session.reachable_loops`.
-/

set_option autoImplicit false

namespace NumberedBasic

/-! ## The loops of a program -/

namespace Program

variable {program : Program}

/-- A `FOR` over a variable stands at a place. -/
def Opens (program : Program) (a : Address) (name : Name) : Prop :=
  ∃ column i first last step, i.name = name ∧
    program.statementAt? a = some (.run (.loop column i first last step))

/-- The variable of a statement that is a `FOR`. -/
def loopName? : Statement → Option Name
  | .run (.loop _ i _ _ _) => some i.name
  | _ => none

/-- The variables of the `FOR`s of a program, in order. -/
def loopNames (program : Program) : List Name :=
  program.lines.toList.flatMap fun line => line.statements.toList.filterMap loopName?

/-- The variable of a `FOR` of a program is one of its loop variables. -/
theorem Opens.mem_loopNames {a : Address} {name : Name} (h : program.Opens a name) :
    name ∈ program.loopNames := by
  obtain ⟨column, i, first, last, step, rfl, stands⟩ := h
  obtain ⟨line, found, inside⟩ := statementAt?_eq_some.mp stands
  have inLines : line ∈ program.lines.toList := (Array.mem_of_getElem? found).val
  have inLine := (Array.mem_of_getElem? inside).val
  exact List.mem_flatMap.mpr ⟨line, inLines, List.mem_filterMap.mpr ⟨_, inLine, rfl⟩⟩

/-- The loops of a program that was loaded are over numeric variables. -/
theorem isText_of_opens {source : String} (h : load source = .ok program) {a : Address}
    {name : Name} (opens : program.Opens a name) : name.isText = false := by
  obtain ⟨column, i, first, last, step, rfl, stands⟩ := opens
  exact tagged_of_load h a _ stands

end Program

namespace Session

open Effect

/-! ## The stack of open loops -/

/-- The open loops of a session of a program: over different variables, each with its body right
after a `FOR` over its variable, and with a step that is not zero. -/
structure Nested (program : Program) (limit : Nat) (loops : BoundedStack Loop) : Prop where
  limit_eq : loops.limit = limit
  overflow_eq : loops.overflow = "FOR STACK OVERFLOW"
  distinct : (loops.entries.map Loop.name).Nodup
  heads : ∀ loop ∈ loops.entries,
    ∃ head, program.Opens head loop.name ∧ loop.body = head.next
  steps : ∀ loop ∈ loops.entries, (loop.step == 0.0) = false

variable {program : Program} {config : Config} {limit : Nat} {loops other : BoundedStack Loop}
variable {s t : Session}

/-- Loops may be left in any order. -/
theorem Nested.of_sublist (nested : Nested program limit loops)
    (sub : other.entries.Sublist loops.entries) (sameLimit : other.limit = loops.limit)
    (sameOverflow : other.overflow = loops.overflow) : Nested program limit other where
  limit_eq := sameLimit.trans nested.limit_eq
  overflow_eq := sameOverflow.trans nested.overflow_eq
  distinct := nested.distinct.sublist (sub.map _)
  heads loop inside := nested.heads loop (sub.subset inside)
  steps loop inside := nested.steps loop (sub.subset inside)

/-- Leaving loops from the top keeps the others nested. -/
theorem Nested.truncate (nested : Nested program limit loops) (n : Nat) :
    Nested program limit (loops.truncate n) :=
  nested.of_sublist (List.drop_sublist _ _) rfl rfl

/-- Leaving the innermost loop keeps the others nested. -/
theorem Nested.pop (nested : Nested program limit loops) : Nested program limit loops.pop :=
  nested.of_sublist (List.tail_sublist _) rfl rfl

/-- Where no loops are open, they are nested. -/
theorem Nested.clear (nested : Nested program limit loops) : Nested program limit loops.clear :=
  nested.of_sublist (List.nil_sublist _) rfl rfl

/-- Leaving the loop over a variable keeps the others nested. -/
theorem Nested.leaveLoop (nested : Nested program limit loops) (name : Name) :
    Nested program limit (leaveLoop name loops) := by
  unfold Session.leaveLoop
  split
  · exact nested.truncate _
  · exact nested

/-- After the loop over a variable has been left, no loop over it is open. -/
theorem Nested.not_mem_leaveLoop (nested : Nested program limit loops) (name : Name) :
    name ∉ (Session.leaveLoop name loops).entries.map Loop.name := by
  have counted := loops.counted
  unfold Session.leaveLoop
  split
  · next i found =>
    obtain ⟨j, topmost, rfl⟩ := Option.map_eq_some_iff.mp found
    obtain ⟨bound, here, -⟩ := List.findIdx?_eq_some_iff_getElem.mp topmost
    have same : loops.entries[j].name = name := by simpa using here
    have below : (loops.truncate (loops.depth - 1 - j)).entries = loops.entries.drop (j + 1) := by
      show loops.entries.drop (loops.depth - (loops.depth - 1 - j)) = _
      congr 1
      omega
    -- the names are those of the loop that is left and of the loops below it
    have split := nested.distinct.sublist ((List.drop_sublist j loops.entries).map Loop.name)
    rw [List.drop_eq_getElem_cons bound, List.map_cons, List.nodup_cons, same] at split
    rw [below]
    exact split.1
  · next none =>
    have absent := List.findIdx?_eq_none_iff.mp (Option.map_eq_none_iff.mp none)
    intro inside
    obtain ⟨loop, listed, same⟩ := List.mem_map.mp inside
    have differs := absent loop listed
    simp [same] at differs

/-- Opening a loop over a variable that no open loop is over. -/
theorem Nested.push (nested : Nested program limit loops) {loop : Loop} {head : Address}
    (pushed : loops.push loop = .ok other) (fresh : loop.name ∉ loops.entries.map Loop.name)
    (opens : program.Opens head loop.name) (resumes : loop.body = head.next)
    (moves : (loop.step == 0.0) = false) : Nested program limit other := by
  unfold BoundedStack.push at pushed
  split at pushed
  · cases pushed
    refine ⟨nested.limit_eq, nested.overflow_eq, ?_, ?_, ?_⟩
    · exact List.nodup_cons.mpr ⟨fresh, nested.distinct⟩
    · exact List.forall_mem_cons.mpr ⟨⟨head, opens, resumes⟩, nested.heads⟩
    · exact List.forall_mem_cons.mpr ⟨moves, nested.steps⟩
  · cases pushed

/-- Different variables of a program are at most as many as the program has. -/
theorem length_le_loopNames {names : List Name} (distinct : names.Nodup)
    (opened : ∀ name ∈ names, ∃ head, program.Opens head name) :
    names.length ≤ program.loopNames.toFinset.card := by
  have subset : names.toFinset ⊆ program.loopNames.toFinset := by
    intro name inside
    obtain ⟨head, opens⟩ := opened name (List.mem_toFinset.mp inside)
    exact List.mem_toFinset.mpr opens.mem_loopNames
  have bound := Finset.card_le_card subset
  rwa [List.toFinset_card_of_nodup distinct] at bound

/-- Every open loop was opened by a `FOR` of the program over its variable. -/
theorem Nested.opened (nested : Nested program limit loops) :
    ∀ name ∈ loops.entries.map Loop.name, ∃ head, program.Opens head name := by
  intro name inside
  obtain ⟨loop, listed, rfl⟩ := List.mem_map.mp inside
  obtain ⟨head, opens, -⟩ := nested.heads loop listed
  exact ⟨head, opens⟩

/-- There are at most as many open loops as there may be, and as the program has loop variables. -/
theorem Nested.depth_le (nested : Nested program limit loops) :
    loops.depth ≤ min limit program.loopNames.toFinset.card := by
  have few := length_le_loopNames nested.distinct nested.opened
  have fits := loops.fits
  have counted := loops.counted
  have sameLimit := nested.limit_eq
  rw [List.length_map] at few
  omega

/-- There is room for a loop unless the program has more loop variables than loops may be open. -/
theorem Nested.lt_of_push_eq_error (nested : Nested program limit loops) {loop : Loop}
    {head : Address} {fault : Fault} (full : loops.push loop = .error fault)
    (fresh : loop.name ∉ loops.entries.map Loop.name) (opens : program.Opens head loop.name) :
    fault = { code := .outOfMemory, detail := "FOR STACK OVERFLOW" } ∧
      limit < program.loopNames.toFinset.card := by
  unfold BoundedStack.push at full
  split at full
  · cases full
  · next noRoom =>
    cases full
    have names : (loop.name :: loops.entries.map Loop.name).Nodup :=
      List.nodup_cons.mpr ⟨fresh, nested.distinct⟩
    have few := length_le_loopNames names
      (List.forall_mem_cons.mpr ⟨⟨head, opens⟩, nested.opened⟩)
    have counted := loops.counted
    have sameLimit := nested.limit_eq
    rw [List.length_cons, List.length_map] at few
    exact ⟨by rw [nested.overflow_eq], by omega⟩

/-! ## `FOR` -/

/-- What `FOR` does before it opens a loop: its start is evaluated and stored, then its limit and
its step are evaluated. -/
def loopHead (name : Name) (first last : Expr) (step : Option Expr) :
    Effect (Float × Float × Float) := do
  let value ← evaluate first
  store name value
  let x ← ofExcept value.toNumber
  let limit ← evaluateNumber last
  let step ← loopStep step
  if step == 0.0 then fail { code := .illegalFunctionCall, detail := "FOR STEP 0" }
  else pure (x, limit, step)

/-- What `FOR` does with its start, limit and step. -/
def openLoop (here : Address) (name : Name) (x limit step : Float) : Effect Course := do
  modify fun s => { s with loops := leaveLoop name s.loops }
  if isPast step limit x then skipLoop here name
  else do
    let loops ← ofExcept ((← get Session.loops).push ⟨name, limit, step, here.next⟩)
    modify fun s => { s with loops }
    return .next

/-- A `FOR` evaluates its head first and opens its loop with what that yields. -/
theorem enterLoop_eq (here : Address) (name : Name) (first last : Expr) (step : Option Expr) :
    enterLoop here name first last step =
      loopHead name first last step >>= fun (x, limit, step) =>
        openLoop here name x limit step := by
  unfold enterLoop loopHead
  simp only [bind_assoc]
  refine bind_congr fun value => bind_congr fun _ => bind_congr fun x => bind_congr fun limit =>
    bind_congr fun step => ?_
  split
  · rfl
  · rfl

/-- The head of a loop changes random numbers and variables at most, and yields a step that is not
zero. -/
theorem obeys_loopHead (name : Name) (first last : Expr) (step : Option Expr) :
    Obeys (Sound program config) (Only [.dice, .memory])
      (fun range => (range.2.2 == 0.0) = false) (loopHead name first last step) := by
  refine (obeys_evaluate first).bind fun value _ => ?_
  refine ((obeys_store name value).widen (by decide)).seq ?_
  refine (Obeys.compute value.computes_toNumber).bind fun x _ => ?_
  refine (obeys_evaluateNumber last).bind fun limit _ => ?_
  refine (obeys_loopStep step).bind fun step _ => ?_
  exact Ensures.ite (fun _ => Ensures.fail rfl)
    fun moves => Ensures.pure (Bool.eq_false_iff.mpr moves)

/-- The head of a `FOR` fails as evaluations and assignments do. -/
theorem failsIn_loopHead (name : Name) (first last : Expr) (step : Option Expr) :
    FailsIn Fault.Evaluated (loopHead name first last step) := by
  have number (e : Expr) : FailsIn Fault.Evaluated (evaluateNumber e) :=
    (evaluative_failsIn.evaluate e).bind fun value _ =>
      Ensures.ofExcept value.computes_toNumber.evaluated
  have increment : FailsIn Fault.Evaluated (loopStep step) := by
    cases step with
    | some e => exact number e
    | none => exact Ensures.pure trivial
  refine (evaluative_failsIn.evaluate first).bind fun value _ => (failsIn_store name value).seq ?_
  refine (Ensures.ofExcept value.computes_toNumber.evaluated).bind fun x _ => ?_
  refine (number last).bind fun limit _ => increment.bind fun step _ => ?_
  exact Ensures.ite (fun _ => Ensures.fail (.inl rfl)) fun _ => Ensures.pure trivial

/-- An evaluation misses no `NEXT`, and it does not open loops that there could be too many of. -/
theorem ne_of_evaluated {fault : Fault} (evaluated : fault.Evaluated) :
    fault.code ≠ .forWithoutNext ∧
      fault ≠ { code := .outOfMemory, detail := "FOR STACK OVERFLOW" } := by
  rcases evaluated with code | rfl
  · refine ⟨fun same => ?_, fun same => ?_⟩
    · rw [same] at code
      cases code
    · rw [same] at code
      cases code
  · decide

/-- Passing over a loop changes nothing, and goes on where the loop ends if it does. -/
theorem skipLoop_eq (here : Address) (name : Name) (s : Session) :
    skipLoop here name s =
      (match s.program.loopExit? name 0 here.next with
        | some target => .ok (.jump target)
        | none => .error { code := .forWithoutNext, detail := name }, s) := by
  unfold skipLoop
  rw [bind_of_ok (x := Effect.get _) rfl]
  cases s.program.loopExit? name 0 here.next with
  | none => rfl
  | some target => rfl

/-- Passing a loop by changes nothing: it jumps, or it fails because there is no `NEXT`. -/
theorem skipLoop_cases (here : Address) (name : Name) (s : Session) :
    (∃ target, skipLoop here name s = (.ok (.jump target), s)) ∨
      skipLoop here name s = (.error { code := .forWithoutNext, detail := name }, s) := by
  rw [skipLoop_eq]
  cases s.program.loopExit? name 0 here.next with
  | none => exact .inr rfl
  | some target => exact .inl ⟨target, rfl⟩

/-- After its head, `FOR` leaves the open loop over its variable. A loop whose range is empty is
passed over. -/
theorem openLoop_of_past (here : Address) (name : Name) {x limit step : Float} (s : Session)
    (past : isPast step limit x = true) :
    openLoop here name x limit step s =
      skipLoop here name { s with loops := leaveLoop name s.loops } := by
  unfold openLoop
  rw [bind_of_ok (x := Effect.modify _) rfl, if_pos past]

/-- Any other loop is opened if there is room for it. -/
theorem openLoop_of_not_past (here : Address) (name : Name) {x limit step : Float} (s : Session)
    (begins : isPast step limit x = false) :
    let left : Session := { s with loops := leaveLoop name s.loops }
    let loop : Loop := ⟨name, limit, step, here.next⟩
    (∃ fault, left.loops.push loop = .error fault ∧
        openLoop here name x limit step s = (.error fault, left)) ∨
      ∃ grown, left.loops.push loop = .ok grown ∧
        openLoop here name x limit step s = (.ok .next, { left with loops := grown }) := by
  intro left loop
  unfold openLoop
  rw [bind_of_ok (x := Effect.modify _) rfl, if_neg (Bool.eq_false_iff.mp begins),
    bind_of_ok (x := Effect.get _) rfl]
  cases pushed : left.loops.push loop with
  | error fault => exact .inl ⟨fault, rfl, bind_of_error (x := Effect.ofExcept _) rfl⟩
  | ok grown => exact .inr ⟨grown, rfl, bind_of_ok (x := Effect.ofExcept _) rfl⟩

/-- Opening a loop, or passing over it, keeps the loops nested. It fails only for want of a `NEXT`
or of room. -/
theorem Nested.openLoop (nested : Nested program limit t.loops) {here : Address} {name : Name}
    (opens : program.Opens here name) {step : Float} (moves : (step == 0.0) = false)
    (x last : Float) :
    Nested program limit (openLoop here name x last step t).2.loops ∧
      ∀ fault, (Session.openLoop here name x last step t).1 = .error fault →
        fault = { code := .forWithoutNext, detail := name } ∨
          fault = { code := .outOfMemory, detail := "FOR STACK OVERFLOW" } ∧
            limit < program.loopNames.toFinset.card := by
  have left := nested.leaveLoop name
  have fresh := nested.not_mem_leaveLoop name
  cases past : isPast step last x with
  | true =>
    rw [openLoop_of_past here name t past]
    rcases skipLoop_cases here name { t with loops := Session.leaveLoop name t.loops } with
      ⟨target, found⟩ | none
    · rw [found]
      exact ⟨left, nofun⟩
    · rw [none]
      refine ⟨left, fun fault failed => .inl ?_⟩
      exact (Except.error.inj failed).symm
  | false =>
    rcases openLoop_of_not_past here name t past with ⟨full, pushed, fails⟩ | ⟨grown, pushed, done⟩
    · rw [fails]
      refine ⟨left, fun fault failed => .inr ?_⟩
      rw [← Except.error.inj failed]
      exact left.lt_of_push_eq_error pushed fresh opens
    · rw [done]
      exact ⟨left.push pushed fresh opens rfl moves, nofun⟩

/-- A `FOR` keeps the loops nested. It fails in its head, or for want of a `NEXT` or of room. -/
theorem Nested.enterLoop (sound : Sound program config s)
    (nested : Nested program limit s.loops) {here : Address} {name : Name}
    (opens : program.Opens here name) (first last : Expr) (step : Option Expr) :
    Nested program limit (enterLoop here name first last step s).2.loops ∧
      ∀ fault, (Session.enterLoop here name first last step s).1 = .error fault →
        (loopHead name first last step s).1 = .error fault ∧ fault.Evaluated ∨
          fault = { code := .forWithoutNext, detail := name } ∨
          fault = { code := .outOfMemory, detail := "FOR STACK OVERFLOW" } ∧
            limit < program.loopNames.toFinset.card := by
  obtain ⟨-, only, settled⟩ := (obeys_loopHead name first last step).outcome sound
  have sameLoops : (loopHead name first last step s).2.loops = s.loops := only .loops (by decide)
  rw [enterLoop_eq]
  rcases head : loopHead name first last step s with ⟨result, t⟩
  rw [head] at sameLoops settled
  have kept : Nested program limit t.loops := by
    rw [show t.loops = s.loops from sameLoops]
    exact nested
  cases result with
  | error fault =>
    rw [bind_of_error head]
    refine ⟨kept, fun fault' failed => .inl ?_⟩
    obtain rfl := Except.error.inj failed
    exact ⟨rfl, (failsIn_loopHead name first last step).of_error head⟩
  | ok range =>
    rw [bind_of_ok head]
    obtain ⟨stillNested, faults⟩ := kept.openLoop opens settled range.1 range.2.1
    exact ⟨stillNested, fun fault failed => .inr (faults fault failed)⟩

/-! ## `NEXT` -/

/-- A variable that stands for numbers holds one. -/
theorem exists_number_of_fits {memory : Memory} (fits : memory.Fits) {name : Name}
    (numeric : name.isText = false) : ∃ x, memory.fetch name = .number x := by
  have fit := fits name
  cases value : memory.fetch name with
  | number x => exact ⟨x, rfl⟩
  | string text => simp [value, Value.fits, Value.isString, numeric] at fit

/-- The variable of a loop is moved on by its step. If it is still within its limit the run goes
back to the body, and otherwise the loop is left. -/
theorem advanceLoop_eq {loop : Loop} {x : Float} (value : t.memory.fetch loop.name = .number x)
    (numeric : loop.name.isText = false) :
    let memory := t.memory.put loop.name (.number (x + loop.step))
    advanceLoop loop t =
      if isWithin loop.step loop.limit (x + loop.step) then
        (.ok (.jump loop.body), { t with memory })
      else (.ok .next, { t with memory, loops := t.loops.pop }) := by
  intro memory
  have accepted : (Value.number (x + loop.step)).fits loop.name = true := by
    simp [Value.fits, Value.isString, numeric]
  have number : Effect.ofExcept (t.memory.fetch loop.name).toNumber t = (.ok x, t) := by
    rw [value]
    rfl
  unfold advanceLoop
  rw [bind_of_ok (x := Effect.get _) rfl, bind_of_ok number, bind_of_ok (store_eq accepted t)]
  by_cases within : isWithin loop.step loop.limit (x + loop.step) = true
  · rw [if_pos within, if_pos within]
    rfl
  · rw [if_neg within, if_neg within]
    rfl

/-- Moving the variable of a loop on always succeeds, and leaves the loop or not. -/
theorem advanceLoop_cases (fits : t.memory.Fits) {loop : Loop}
    (numeric : loop.name.isText = false) :
    ∃ course u, advanceLoop loop t = (.ok course, u) ∧
      (u.loops = t.loops ∨ u.loops = t.loops.pop) := by
  obtain ⟨x, value⟩ := exists_number_of_fits fits numeric
  rw [advanceLoop_eq value numeric]
  by_cases within : isWithin loop.step loop.limit (x + loop.step) = true
  · rw [if_pos within]
    exact ⟨_, _, rfl, .inl rfl⟩
  · rw [if_neg within]
    exact ⟨_, _, rfl, .inr rfl⟩

/-- A `NEXT` keeps the loops nested, and fails only if there is no loop that it could continue. -/
theorem Nested.continueLoop (fits : s.memory.Fits) (nested : Nested program limit s.loops)
    (numeric : ∀ a name, program.Opens a name → name.isText = false) (name : Option Name) :
    Nested program limit (continueLoop name s).2.loops ∧
      ∀ fault, (Session.continueLoop name s).1 = .error fault →
        fault = { code := .nextWithoutFor, detail := name.getD "" } := by
  rcases continueLoop_cases name s with none | ⟨i, loop, top, whole⟩
  · rw [none]
    refine ⟨nested, fun fault failed => ?_⟩
    cases failed
    rfl
  · have cut := nested.truncate (i + 1)
    obtain ⟨head, opens, -⟩ := cut.heads loop (List.mem_of_head? top)
    have cutFits : ({ s with loops := s.loops.truncate (i + 1) } : Session).memory.Fits := fits
    obtain ⟨course, u, done, same | popped⟩ := advanceLoop_cases cutFits (numeric head _ opens)
    · rw [whole, done]
      refine ⟨?_, nofun⟩
      rw [show u.loops = s.loops.truncate (i + 1) from same]
      exact cut
    · rw [whole, done]
      refine ⟨?_, nofun⟩
      rw [show u.loops = (s.loops.truncate (i + 1)).pop from popped]
      exact cut.pop

/-! ## All statements -/

/-- No other statement changes the open loops. -/
theorem loops_notMem_footprint {command : Command}
    (noLoop : ∀ column i first last step, command ≠ .loop column i first last step)
    (noNext : ∀ column i, command ≠ .next column i) : .loops ∉ command.footprint := by
  cases command with
  | loop column i first last step => exact absurd rfl (noLoop column i first last step)
  | next column i => exact absurd rfl (noNext column i)
  | _ => simp [Command.footprint]

/-- A statement keeps the loops nested. -/
theorem Nested.perform (formed : program.Formed)
    (numeric : ∀ a name, program.Opens a name → name.isText = false)
    (sound : Sound program config s) (nested : Nested program limit s.loops) {here : Address}
    {statement : Statement} (stands : program.statementAt? here = some statement) :
    Nested program limit (perform here statement s).2.loops := by
  have unchanged : .loops ∉ statement.footprint →
      Nested program limit (Session.perform here statement s).2.loops := by
    intro outside
    rcases perform_cases formed stands sound with ⟨prompt, asked⟩ | ⟨-, only, -⟩
    · rw [asked]
      exact nested
    · rw [show (Session.perform here statement s).2.loops = s.loops from only .loops outside]
      exact nested
  cases statement with
  | branch | skip => exact unchanged (by simp [Statement.footprint])
  | run command =>
    by_cases isLoop : ∃ column i first last step, command = .loop column i first last step
    · obtain ⟨column, i, first, last, step, rfl⟩ := isLoop
      exact (nested.enterLoop sound ⟨column, i, first, last, step, rfl, stands⟩ first last step).1
    · by_cases isNext : ∃ column i, command = .next column i
      · obtain ⟨column, i, rfl⟩ := isNext
        exact (nested.continueLoop sound.fits numeric _).1
      · refine unchanged (loops_notMem_footprint ?_ ?_)
        · rintro column i first last step rfl
          exact isLoop ⟨column, i, first, last, step, rfl⟩
        · rintro column i rfl
          exact isNext ⟨column, i, rfl⟩

/-! ## Runs -/

/-- Delivering output does not touch the open loops. -/
theorem loops_deliver (s : Session) : s.deliver.2.loops = s.loops := by
  rcases s.deliver_cases with ⟨nothing, -⟩ | ⟨text, -⟩
  · rw [nothing]
  · rw [text]

/-- The end of a run leaves all loops. -/
theorem loops_stop (s : Session) (outcome : Outcome) :
    (s.stop outcome).2.loops = s.loops.clear := by
  show (s.finish outcome).2.loops = s.loops.clear
  rcases s.finish_cases outcome with ⟨stopped, -⟩ | print
  · rw [stopped]
    rfl
  · rw [print]
    rfl

/-- What a statement has led to keeps the open loops nested. -/
theorem Nested.follow (nested : Nested program limit t.loops) (result : Except Fault Course) :
    Nested program limit (follow result t).2.loops := by
  have stops : ∀ outcome, Nested program limit (t.stop outcome).2.loops := by
    intro outcome
    rw [loops_stop]
    exact nested.clear
  cases result with
  | error fault => exact stops _
  | ok course =>
    cases course with
    | next | jump =>
      unfold Session.follow
      rw [loops_deliver]
      exact nested
    | ask => exact nested
    | finish | stop => exact stops _

/-- One statement of a run keeps the loops nested. -/
theorem Nested.turn (formed : program.Formed)
    (numeric : ∀ a name, program.Opens a name → name.isText = false)
    (standing : Standing program config s) (nested : Nested program limit s.loops) :
    Nested program limit s.turn.2.loops := by
  by_cases interrupted : s.interrupted
  · rw [Session.turn, if_pos interrupted, loops_stop]
    exact nested.clear
  · cases found : s.program.statement? s.place with
    | none =>
      have ended : step s = (.ok .finish, s) := by
        unfold step
        rw [bind_of_ok (x := Effect.get _) rfl, found]
        rfl
      rw [turn_of_step interrupted ended]
      exact nested.follow _
    | some pair =>
      obtain ⟨here, statement⟩ := pair
      have stands : program.statementAt? here = some statement := by
        rw [← standing.program_eq]
        exact Program.statementAt?_of_statement? found
      have sound := standing.toSound.moveTo here
      have kept : Nested program limit ({ s with place := here } : Session).loops := nested
      have performed := kept.perform formed numeric sound stands
      rw [turn_of_step interrupted (step_of_statement? found)]
      exact performed.follow _

/-- The open loops of a session are over different numeric variables; each goes back to the place
right after a `FOR` over its variable and has a step that is not zero; and there are at most as many
as may be open, and as the program has loop variables. -/
structure LoopsInOrder (s : Session) : Prop where
  distinct : (s.loops.entries.map Loop.name).Nodup
  numeric : ∀ loop ∈ s.loops.entries, loop.name.isText = false
  heads : ∀ loop ∈ s.loops.entries,
    ∃ head, s.program.Opens head loop.name ∧ loop.body = head.next
  steps : ∀ loop ∈ s.loops.entries, (loop.step == 0.0) = false
  depth : s.loops.entries.length ≤ min s.config.stackLimit s.program.loopNames.toFinset.card

/-- The loops of every session that a host can bring about are nested, and those of its program are
over numeric variables. -/
theorem Reachable.nested (h : Reachable s) :
    (∀ a name, s.program.Opens a name → name.isText = false) ∧
      Nested s.program s.config.stackLimit s.loops := by
  refine Reachable.invariant (J := fun s =>
    (∀ a name, s.program.Opens a name → name.isText = false) ∧
      Nested s.program s.config.stackLimit s.loops) ?_ ?_ ?_ h
  · intro source program config clock loaded
    refine ⟨fun a name opens => Program.isText_of_opens loaded opens, rfl, rfl, ?_, nofun, nofun⟩
    exact List.nodup_nil
  · rintro program config s formed standing ⟨numeric, nested⟩
    have after := standing.turn formed
    rw [standing.program_eq] at numeric
    rw [standing.program_eq, standing.config_eq] at nested
    rw [after.program_eq, after.config_eq]
    exact ⟨numeric, nested.turn formed numeric standing⟩
  · rintro s t only ⟨numeric, nested⟩
    have sameProgram : t.program = s.program := only .program (by decide)
    have sameConfig : t.config = s.config := only .config (by decide)
    have sameLoops : t.loops = s.loops := only .loops (by decide)
    rw [sameProgram, sameConfig, sameLoops]
    exact ⟨numeric, nested⟩

/-- The open loops of every session that a host can bring about are in order. A `FOR` that comes
next fails in its head, for want of a `NEXT`, or for want of room. Its head never fails with one of
the last two faults, so that room is wanting only if the program has more loop variables than loops
may be open. A `NEXT` that comes next fails only if there is no loop that it could continue. -/
theorem reachable_loops (reachable : Reachable s) :
    s.LoopsInOrder ∧
      (∀ here column i first last loopStep fault,
        s.program.statement? s.place =
            some (here, .run (.loop column i first last loopStep)) →
          (step s).1 = .error fault →
            ((loopHead i.name first last loopStep { s with place := here }).1 = .error fault ∧
                fault.code ≠ .forWithoutNext ∧
                fault ≠ { code := .outOfMemory, detail := "FOR STACK OVERFLOW" }) ∨
              fault = { code := .forWithoutNext, detail := i.name } ∨
              fault = { code := .outOfMemory, detail := "FOR STACK OVERFLOW" } ∧
                s.config.stackLimit < s.program.loopNames.toFinset.card) ∧
      ∀ here column i fault,
        s.program.statement? s.place = some (here, .run (.next column i)) →
          (step s).1 = .error fault →
            fault = { code := .nextWithoutFor, detail := (i.map Ident.name).getD "" } := by
  obtain ⟨numeric, nested⟩ := reachable.nested
  obtain ⟨program, config, formed, standing⟩ := reachable.standing
  refine ⟨⟨nested.distinct, ?_, nested.heads, nested.steps, ?_⟩, ?_, ?_⟩
  · intro loop inside
    obtain ⟨head, opens, -⟩ := nested.heads loop inside
    exact numeric head _ opens
  · rw [← s.loops.counted]
    exact nested.depth_le
  · intro here column i first last loopStep fault found failed
    have stands := Program.statementAt?_of_statement? found
    have sound := standing.toSound.moveTo here
    have kept : Nested s.program s.config.stackLimit ({ s with place := here } : Session).loops :=
      nested
    rw [step_of_statement? found] at failed
    rw [← standing.program_eq] at sound
    have opens : s.program.Opens here i.name := ⟨column, i, first, last, loopStep, rfl, stands⟩
    -- The head fails with faults of evaluations, and these are neither of the two that opening a
    -- loop can fail with.
    rcases (kept.enterLoop sound opens first last loopStep).2 fault failed with
      ⟨head, evaluated⟩ | other
    · exact .inl ⟨head, ne_of_evaluated evaluated⟩
    · exact .inr other
  · intro here column i fault found failed
    rw [step_of_statement? found] at failed
    have kept : Nested s.program s.config.stackLimit ({ s with place := here } : Session).loops :=
      nested
    have fits : ({ s with place := here } : Session).memory.Fits := standing.fits
    exact (kept.continueLoop fits numeric _).2 fault failed

/-- Two loops are open after two statements, and two are all that this program can ever have. -/
theorem reachable_loops_nested :
    ∃ s, Reachable s ∧ s.LoopsInOrder ∧ s.loops.entries.map Loop.name = ["J", "I"] ∧
      s.program.loopNames.toFinset.card = 2 := by
  let test (s : Session) : Bool :=
    let t := (s.execute 5).2
    decide (t.loops.entries.map Loop.name = ["J", "I"]) &&
      decide (t.program.loopNames.toFinset.card = 2)
  obtain ⟨s, loaded, tested⟩ : ∃ s,
      Session.load "10 FOR I=1 TO 3\n20 FOR J=1 TO 2\n30 GOTO 10" { stackLimit := 2, seed := 0 }
        ⟨2000, 1, 1, 0, 0, 0⟩ = .ok s ∧ test s = true :=
    exists_ok_of_any (by decide +kernel)
  simp only [test, Bool.and_eq_true, decide_eq_true_eq] at tested
  have reachable : Reachable (s.execute 5).2 := (Reachable.load loaded).execute 5
  exact ⟨_, reachable, (reachable_loops reachable).1, tested.1, tested.2⟩

end Session

end NumberedBasic
