import Mathlib.Order.Nat
import NumberedBasic.Proofs.LoopStack
import NumberedBasic.Proofs.RunHistory
import NumberedBasic.Proofs.StackEntries

/-!
# The rounds of a loop

A loop is spread over a `FOR`, a `NEXT` and an entry of the stack, with any statements in between.
What it does is said of a run, cycle by cycle, that begins with the `FOR`: `Entry` tells when its
body is entered, by the `FOR` first and by each `NEXT` that goes back then, and `Reaches` that the
body comes to its `NEXT` with the loop still open and its variable unchanged.

One cycle can leave loops from the top of the stack or put one there, so while a loop is open those
below it stay as they are (`Restacks.split`, `Reaches.during`). One round of a loop therefore ends
with the variable moved on by one step, and goes back or leaves the loop (`Entered.round`). How many
rounds there are is counted in `exists_entry_iff`, and the main statement is `loop_rounds`.
-/

set_option autoImplicit false

namespace NumberedBasic

open Session Effect

/-! ## The stack of loops -/

namespace Session

variable {program : Program} {config : Config} {limit : Nat}
  {loops before after : BoundedStack Loop} {loop : Loop} {below above : List Loop} {s t : Session}

/-- No other open loop is over the variable of a loop. -/
theorem Nested.names_of_split (nested : Nested program limit loops)
    (whole : loops.toList = below ++ loop :: above) :
    loop.name ∉ below.map Loop.name ∧ loop.name ∉ above.map Loop.name := by
  have distinct := List.nodup_reverse.mpr nested.distinct
  rw [← List.map_reverse, show loops.entries.reverse = _ from whole, List.map_append, List.map_cons,
    List.nodup_middle, List.nodup_cons, List.mem_append, not_or] at distinct
  exact distinct.1

/-- The index of an open loop is that of its variable. -/
theorem Nested.topmost?_eq (nested : Nested program limit loops)
    (whole : loops.toList = below ++ loop :: above) :
    loops.topmost? (·.name == loop.name) = some below.length := by
  refine BoundedStack.topmost?_of_split whole (by simp) fun other inside => ?_
  have absent := (nested.names_of_split whole).2
  have differs : other.name ≠ loop.name := fun same =>
    absent (same ▸ List.mem_map_of_mem inside)
  simpa using differs

/-- Leaving a loop keeps those below it. -/
theorem Nested.toList_leaveLoop (nested : Nested program limit loops)
    (whole : loops.toList = below ++ loop :: above) :
    (Session.leaveLoop loop.name loops).toList = below := by
  unfold Session.leaveLoop
  rw [nested.topmost?_eq whole]
  dsimp only
  rw [BoundedStack.toList_truncate, whole, List.take_left]

/-- Leaving a loop keeps those that were opened before it. -/
theorem prefix_leaveLoop (name : Name) (loops : BoundedStack Loop) :
    (leaveLoop name loops).toList <+: loops.toList := by
  unfold leaveLoop
  split
  · rw [BoundedStack.toList_truncate]
    exact List.take_prefix _ _
  · exact List.prefix_rfl

/-- What a statement can do to the open loops: leave some from the top, or leave the one over a
variable and open another one over it. -/
def Restacks (before after : BoundedStack Loop) : Prop :=
  after.toList <+: before.toList ∨
    ∃ loop : Loop, after.toList = (leaveLoop loop.name before).toList ++ [loop]

/-- The entries of a list up to one of them are kept by whatever keeps that one. -/
theorem exists_of_isPrefix {α : Type} {x : α} {kept lower upper : List α}
    (part : kept <+: lower ++ x :: upper) (inside : x ∈ kept) (absent : x ∉ lower) :
    ∃ upper', kept = lower ++ x :: upper' := by
  obtain ⟨rest, whole⟩ := part
  rcases List.append_eq_append_iff.mp whole with ⟨more, same, -⟩ | ⟨more, same, split⟩
  · rw [same] at absent
    exact absurd (List.mem_append_left _ inside) absent
  · cases more with
    | nil =>
        rw [List.append_nil] at same
        exact absurd (same ▸ inside) absent
    | cons first more =>
        rw [List.cons_append, List.cons.injEq] at split
        exact ⟨more, by rw [same, split.1]⟩

/-- While a loop is open, those below it stay as they are. -/
theorem Restacks.split (restacks : Restacks before after) (nested : Nested program limit before)
    (whole : before.toList = below ++ loop :: above) (stays : loop ∈ after.toList) :
    ∃ above', after.toList = below ++ loop :: above' := by
  have absent : loop ∉ below := fun inside =>
    (nested.names_of_split whole).1 (List.mem_map_of_mem inside)
  rcases restacks with part | ⟨opened, pushed⟩
  · rw [whole] at part
    exact exists_of_isPrefix part stays absent
  · rw [pushed, List.mem_append, List.mem_singleton] at stays
    rcases stays with inside | rfl
    · have part := prefix_leaveLoop opened.name before
      rw [whole] at part
      obtain ⟨upper, kept⟩ := exists_of_isPrefix part inside absent
      exact ⟨upper ++ [opened], by rw [pushed, kept, List.append_assoc, List.cons_append]⟩
    · rw [nested.toList_leaveLoop whole] at pushed
      exact ⟨[], pushed⟩

/-- A statement that does not touch the open loops restacks them by leaving none. -/
theorem Restacks.of_eq (same : after = before) : Restacks before after :=
  .inl (by rw [same])

/-- Opening a loop leaves the one over its variable and opens another one. -/
theorem restacks_openLoop (here : Address) (name : Name) (x limit step : Float) (s : Session) :
    Restacks s.loops (openLoop here name x limit step s).2.loops := by
  have left : Restacks s.loops (leaveLoop name s.loops) := .inl (prefix_leaveLoop name s.loops)
  cases past : isPast step limit x with
  | true =>
      rw [openLoop_of_past here name s past, skipLoop_eq]
      exact left
  | false =>
      rcases openLoop_of_not_past here name s past with ⟨_, -, fails⟩ | ⟨grown, pushed, done⟩
      · rw [fails]
        exact left
      · rw [done]
        exact .inr ⟨⟨name, limit, step, here.next⟩, (BoundedStack.of_push_eq_ok pushed).2.1⟩

/-- A `FOR` restacks the open loops, whether it opens its loop, passes it by or fails. -/
theorem restacks_enterLoop (sound : Sound program config s) (here : Address) (name : Name)
    (first last : Expr) (step : Option Expr) :
    Restacks s.loops (enterLoop here name first last step s).2.loops := by
  have only := ((obeys_loopHead name first last step).outcome sound).2.1
  rw [enterLoop_eq]
  rcases head : loopHead name first last step s with ⟨result, t⟩
  rw [head] at only
  have same : t.loops = s.loops := only .loops (by decide)
  cases result with
  | error fault =>
      rw [bind_of_error head]
      exact .of_eq same
  | ok range =>
      rw [bind_of_ok head, ← same]
      exact restacks_openLoop here name range.1 range.2.1 range.2.2 t

/-- A `NEXT` restacks the open loops, whether it goes back, leaves loops or fails. -/
theorem restacks_continueLoop (fits : s.memory.Fits) (nested : Nested program limit s.loops)
    (numeric : ∀ a name, program.Opens a name → name.isText = false) (name : Option Name) :
    Restacks s.loops (continueLoop name s).2.loops := by
  rcases continueLoop_cases name s with none | ⟨i, loop, top, whole⟩
  · rw [none]
    exact .of_eq rfl
  · have cut : (s.loops.truncate (i + 1)).toList <+: s.loops.toList := by
      rw [BoundedStack.toList_truncate]
      exact List.take_prefix _ _
    obtain ⟨head, opens, -⟩ := (nested.truncate (i + 1)).heads loop (List.mem_of_head? top)
    have cutFits : ({ s with loops := s.loops.truncate (i + 1) } : Session).memory.Fits := fits
    obtain ⟨course, u, done, same | popped⟩ := advanceLoop_cases cutFits (numeric head _ opens)
    · rw [whole, done, show u.loops = s.loops.truncate (i + 1) from same]
      exact .inl cut
    · rw [whole, done, show u.loops = (s.loops.truncate (i + 1)).pop from popped]
      refine .inl (List.IsPrefix.trans ?_ cut)
      rw [BoundedStack.toList_pop]
      exact List.dropLast_prefix _

/-- No statement does more to the open loops. -/
theorem restacks_perform (formed : program.Formed)
    (numeric : ∀ a name, program.Opens a name → name.isText = false)
    (sound : Sound program config s) (nested : Nested program limit s.loops) {here : Address}
    {statement : Statement} (stands : program.statementAt? here = some statement) :
    Restacks s.loops (perform here statement s).2.loops := by
  have unchanged : .loops ∉ statement.footprint →
      Restacks s.loops (Session.perform here statement s).2.loops := by
    intro outside
    rcases perform_cases formed stands sound with ⟨prompt, asked⟩ | ⟨-, only, -⟩
    · rw [asked]
      exact .of_eq rfl
    · exact .of_eq (only .loops outside)
  cases statement with
  | branch | skip => exact unchanged (by simp [Statement.footprint])
  | run command =>
      cases command with
      | loop column i first last step => exact restacks_enterLoop sound here i.name first last step
      | next column i => exact restacks_continueLoop sound.fits nested numeric (i.map Ident.name)
      | _ => exact unchanged (by simp [Statement.footprint, Command.footprint])

/-! ## One cycle -/

/-- A session between two cycles of a run that has not ended. -/
structure Running (program : Program) (config : Config) (s : Session) : Prop
    extends Standing program config s where
  formed : program.Formed
  numeric : ∀ a name, program.Opens a name → name.isText = false
  nested : Nested program config.stackLimit s.loops
  isOpen : s.Open

/-- A reachable session that is open stands between two cycles of a run. -/
theorem Reachable.running (reachable : Reachable s) (isOpen : s.Open) :
    ∃ program config, Running program config s := by
  obtain ⟨program, config, formed, standing⟩ := reachable.standing
  obtain ⟨numeric, nested⟩ := reachable.nested
  rw [standing.program_eq] at numeric nested
  rw [standing.config_eq] at nested
  exact ⟨program, config, standing, formed, numeric, nested, isOpen⟩

/-- What a host does between two cycles leaves a run as it is. -/
theorem Running.caller (running : Running program config s) (only : Only callerParts s t) :
    Running program config t := by
  have sameLoops : t.loops = s.loops := only .loops (by decide)
  refine ⟨running.toStanding.of_only (only.mono (by decide)), running.formed, running.numeric, ?_,
    running.isOpen.caller only⟩
  rw [sameLoops]
  exact running.nested

/-- A statement that goes on leaves the run open. -/
theorem Running.open_of_goal? (running : Running program config s) {deed : Deed} {target : Address}
    (performed : s.deed? = some deed) (goes : deed.goal? = some target) : s.turn.2.Open := by
  have sound := Deed.sound_of_deed? running.toStanding performed
  have left : deed.left.outcome = deed.session.outcome :=
    sound.unchanged running.formed .outcome (by decide)
  rw [turn_of_goal? running.formed running.toStanding running.isOpen performed goes]
  refine ⟨rfl, ?_⟩
  show deed.left.outcome = none
  rw [left, (deed?_eq_some.mp performed).2.2]
  exact running.isOpen.2

/-- The end of a run leaves all loops, so a cycle after which one is open goes on. -/
theorem Running.turn (running : Running program config s) (stays : loop ∈ s.turn.2.loops.toList) :
    Running program config s.turn.2 ∧ Restacks s.loops s.turn.2.loops := by
  have formed := running.formed
  have standing := running.toStanding
  cases performed : s.deed? with
  | none =>
      rw [turn_of_no_deed performed, stop_snd] at stays
      cases stays
  | some deed =>
      have sound := Deed.sound_of_deed? standing performed
      have session := (deed?_eq_some.mp performed).2.2
      have sameLoops : deed.session.loops = s.loops := by rw [session]
      rcases sound.follow_cases formed (output_of_deed? running.isOpen performed) with
        ⟨target, goes, -, same⟩ | ⟨outcome, -, -, same⟩
      · have stillOpen := running.open_of_goal? performed goes
        have nested : Nested program config.stackLimit deed.session.loops := by
          rw [sameLoops]
          exact running.nested
        have restacks := restacks_perform formed running.numeric sound.session nested sound.stands
        refine ⟨⟨standing.turn formed, formed, running.numeric,
          running.nested.turn formed running.numeric standing, stillOpen⟩, ?_⟩
        rw [turn_of_deed? performed, same, ← sameLoops]
        exact restacks
      · rw [turn_of_deed? performed, same] at stays
        cases stays

/-! ## `FOR` and `NEXT` -/

/-- A variable that has been assigned holds its value. -/
theorem fetch_store {name : Name} {value : Value} (stored : store name value s = (.ok (), t)) :
    t.memory.fetch name = value := by
  by_cases fits : value.fits name = true
  · rw [store_eq fits s] at stored
    cases stored
    rw [Memory.fetch_put, if_pos rfl]
  · have refused : ofExcept (s.memory.store name value) s =
        (.error { code := .typeMismatch, detail := name }, s) := by
      simp only [Memory.store, Value.check, fits]
      rfl
    have failed : store name value s = (.error { code := .typeMismatch, detail := name }, s) :=
      (bind_of_ok (x := Effect.get _) rfl).trans (bind_of_error refused)
    rw [failed] at stored
    cases stored

/-- Evaluating the step of a loop is quiet. -/
theorem quiet_loopStep (step : Option Expr) :
    Obeys (Ready program) Quiet (fun _ => True) (loopStep step) := by
  cases step with
  | none => exact Ensures.pure trivial
  | some e => exact quiet_evaluateNumber e

/-- After the head of a `FOR` its variable has its start. -/
theorem fetch_loopHead (sound : Sound program config s) {name : Name} {first last : Expr}
    {step : Option Expr} {x limit increment : Float}
    (head : loopHead name first last step s = (.ok (x, limit, increment), t)) :
    t.memory.fetch name = .number x := by
  obtain ⟨value, s₁, evaluated, later⟩ := exists_of_bind head
  obtain ⟨_, s₂, stored, later⟩ := exists_of_bind later
  obtain ⟨start, s₃, number, later⟩ := exists_of_bind later
  obtain ⟨bound, s₄, bounded, later⟩ := exists_of_bind later
  obtain ⟨increment', s₅, stepped, yields⟩ := exists_of_bind later
  have sound₁ : Sound program config s₁ := by
    have kept := ((obeys_evaluate first).outcome sound).1
    rwa [evaluated] at kept
  have sound₂ : Sound program config s₂ := by
    have kept := ((obeys_store name value).outcome sound₁).1
    rwa [stored] at kept
  -- what is stored is the start, and what is evaluated afterwards leaves it alone
  have isStart : value = .number start ∧ s₃ = s₂ := by
    cases value with
    | number y =>
        cases number
        exact ⟨rfl, rfl⟩
    | string text => cases number
  obtain ⟨rfl, rfl⟩ := isStart
  have quiet₄ : Quiet s₃ s₄ := by
    have kept := ((quiet_evaluateNumber last).outcome sound₂.toReady).2.1
    rwa [bounded] at kept
  have quiet₅ : Quiet s₄ s₅ := by
    have kept := ((quiet_loopStep step).outcome (sound₂.toReady.of_quiet quiet₄)).2.1
    rwa [stepped] at kept
  have same : start = x ∧ s₅ = t := by
    split at yields
    · cases yields
    · cases yields
      exact ⟨rfl, rfl⟩
  obtain ⟨rfl, rfl⟩ := same
  rw [quiet₅.fetch, quiet₄.fetch, fetch_store stored]

end Session

namespace Deed

variable {deed : Deed} {loop : Loop} {x : Float}

/-- The loop of a `FOR` and its start, if its head yields them. -/
def head? (deed : Deed) : Option (Loop × Float) :=
  match deed.statement with
  | .run (.loop _ i first last step) =>
    match (loopHead i.name first last step deed.session).1 with
    | .ok (x, limit, step) => some (⟨i.name, limit, step, deed.place.next⟩, x)
    | .error _ => none
  | _ => none

/-- Where the head of a loop is found, a `FOR` is performed that yields it. -/
theorem exists_of_head? (heads : deed.head? = some (loop, x)) :
    ∃ column i first last step t, i.name = loop.name ∧
      deed.statement = .run (.loop column i first last step) ∧
        loopHead loop.name first last step deed.session = (.ok (x, loop.limit, loop.step), t) ∧
        loop.body = deed.place.next := by
  obtain ⟨session, statement⟩ := deed
  cases statement with
  | branch | skip => cases heads
  | run command =>
      cases command with
      | loop column i first last step =>
          rcases head : loopHead i.name first last step session with ⟨result, t⟩
          simp only [head?, head] at heads
          cases result with
          | error fault => cases heads
          | ok range =>
              cases heads
              exact ⟨column, i, first, last, step, t, rfl, rfl, head, rfl⟩
      | _ => cases heads

/-- Whether a statement is a `NEXT` for a loop: it names its variable, or it has no name and the
loop is the innermost one. -/
def continues (loop : Loop) (deed : Deed) : Bool :=
  match deed.statement with
  | .run (.next _ (some i)) => i.name == loop.name
  | .run (.next _ none) => deed.session.loops.top? == some loop
  | _ => false

/-- A statement that continues a loop is a `NEXT`, with the name of its variable or with none. -/
theorem exists_of_continues (continues : deed.continues loop = true) :
    ∃ column ident?, deed.statement = .run (.next column ident?) ∧
      (ident?.map Ident.name = some loop.name ∨
        ident?.map Ident.name = none ∧ deed.session.loops.top? = some loop) := by
  obtain ⟨session, statement⟩ := deed
  cases statement with
  | branch | skip => cases continues
  | run command =>
      cases command with
      | next column ident? =>
          cases ident? with
          | none => exact ⟨column, none, rfl, .inr ⟨rfl, beq_iff_eq.mp continues⟩⟩
          | some i =>
              exact ⟨column, some i, rfl, .inl (congrArg some (beq_iff_eq.mp continues))⟩
      | _ => cases continues

end Deed

namespace Session

variable {program : Program} {config : Config} {limit : Nat} {loops : BoundedStack Loop}
  {loop : Loop} {below above : List Loop} {s : Session} {deed : Deed} {x : Float}

/-- A `FOR` opens its loop if its range is not empty and there is room for it, and does not go on
with its body otherwise. -/
theorem Running.turn_of_head? (running : Running program config s)
    (performed : s.deed? = some deed) (heads : deed.head? = some (loop, x))
    (room : (leaveLoop loop.name s.loops).depth < s.loops.limit) :
    (deed.result = .ok .next ↔ isPast loop.step loop.limit x = false) ∧
      (deed.result = .ok .next →
        s.turn.2.place = loop.body ∧ s.turn.2.memory.fetch loop.name = .number x ∧
          s.turn.2.loops.toList = (leaveLoop loop.name s.loops).toList ++ [loop]) := by
  obtain ⟨column, i, first, last, step, t, named, isLoop, head, body⟩ :=
    Deed.exists_of_head? heads
  have sound := Deed.sound_of_deed? running.toStanding performed
  have only := ((obeys_loopHead loop.name first last step).outcome sound.session).2.1
  rw [head] at only
  have loops : t.loops = s.loops := by
    have kept : t.loops = deed.session.loops := only .loops (by decide)
    rw [kept, (deed?_eq_some.mp performed).2.2]
  have whole : perform deed.place deed.statement deed.session =
      openLoop deed.place loop.name x loop.limit loop.step t := by
    rw [isLoop]
    show enterLoop deed.place i.name first last step deed.session = _
    rw [named, enterLoop_eq, bind_of_ok head]
  cases past : isPast loop.step loop.limit x with
  | true =>
      have skips : deed.result ≠ .ok .next := by
        rw [Deed.result, whole, openLoop_of_past _ _ t past, skipLoop_eq]
        cases Program.loopExit? _ loop.name 0 _ with
        | none => exact nofun
        | some target => exact nofun
      simp [skips]
  | false =>
      have same : (⟨loop.name, loop.limit, loop.step, deed.place.next⟩ : Loop) = loop := by
        rw [← body]
      -- Opening the loop can fail for want of room only, and there is room.
      rcases openLoop_of_not_past deed.place loop.name t past with
        ⟨fault, full, -⟩ | ⟨grown, pushed, done⟩
      · have limits : (leaveLoop loop.name s.loops).limit = s.loops.limit := by
          unfold leaveLoop
          split <;> rfl
        have filled := (BoundedStack.of_push_eq_error full).1
        dsimp only at filled
        rw [loops, limits] at filled
        omega
      · have result : deed.result = .ok .next := by rw [Deed.result, whole, done]
        refine ⟨iff_of_true result rfl, fun _ => ?_⟩
        have goes : deed.goal? = some deed.place.next := by rw [Deed.goal?, result]
        have left : deed.left = { t with loops := grown } := by rw [Deed.left, whole, done]
        have value := fetch_loopHead sound.session head
        rw [turn_of_goal? running.formed running.toStanding running.isOpen performed goes, left]
        refine ⟨body.symm, value, ?_⟩
        rw [same] at pushed
        have grows := (BoundedStack.of_push_eq_ok pushed).2.1
        dsimp only at grows
        rwa [loops] at grows

/-- A `NEXT` for an open loop finds it. -/
theorem Nested.loopIndex?_eq (nested : Nested program limit loops)
    (whole : loops.toList = below ++ loop :: above) {name? : Option Name}
    (meant : name? = some loop.name ∨ name? = none ∧ loops.top? = some loop) :
    loopIndex? name? loops = some below.length := by
  rcases meant with rfl | ⟨rfl, top⟩
  · exact nested.topmost?_eq whole
  · -- no loop is above the one on top, because no other one is over the same variable
    have topmost : above = [] := by
      rcases List.eq_nil_or_concat above with empty | ⟨rest, final, rfl⟩
      · exact empty
      · have ends : loops.toList = (below ++ loop :: rest) ++ [final] := by simp [whole]
        have last := BoundedStack.toList_of_top? top
        rw [ends] at last
        obtain rfl := List.head_eq_of_cons_eq (List.append_inj' last rfl).2
        exact absurd (by simp) (nested.names_of_split whole).2
    have depth := BoundedStack.length_toList loops
    rw [whole, topmost, List.length_append, List.length_singleton] at depth
    unfold loopIndex?
    rw [if_neg (by omega), ← depth]
    rfl

/-- A `NEXT` for an open loop moves its variable on by one step. If it is still within its limit the
run goes back to the body, with the loop innermost; otherwise the loop is left. -/
theorem Running.turn_of_continues (running : Running program config s)
    (whole : s.loops.toList = below ++ loop :: above)
    (value : s.memory.fetch loop.name = .number x) (performed : s.deed? = some deed)
    (continues : deed.continues loop = true) :
    s.turn.2.Open ∧ s.turn.2.memory.fetch loop.name = .number (x + loop.step) ∧
      if isWithin loop.step loop.limit (x + loop.step) then
        deed.result = .ok (.jump loop.body) ∧ s.turn.2.place = loop.body ∧
          s.turn.2.loops.toList = below ++ [loop]
      else
        deed.result = .ok .next ∧ s.turn.2.place = deed.place.next ∧
          s.turn.2.loops.toList = below := by
  obtain ⟨column, ident?, isNext, meant⟩ := Deed.exists_of_continues continues
  have session := (deed?_eq_some.mp performed).2.2
  have sameLoops : deed.session.loops = s.loops := by rw [session]
  rw [sameLoops] at meant
  have found := running.nested.loopIndex?_eq whole meant
  have cut : (s.loops.truncate (below.length + 1)).toList = below ++ [loop] := by
    rw [BoundedStack.toList_truncate, whole, List.take_length_add_append]
    rfl
  have numeric : loop.name.isText = false := by
    have inside : loop ∈ s.loops.entries := by
      rw [← List.mem_reverse, show s.loops.entries.reverse = _ from whole]
      simp
    obtain ⟨head, opens, -⟩ := running.nested.heads loop inside
    exact running.numeric head _ opens
  -- The loops inside the continued one are left before its variable is moved on.
  let cutBack : Session := { deed.session with loops := s.loops.truncate (below.length + 1) }
  have sameMemory : cutBack.memory = s.memory := by
    show deed.session.memory = s.memory
    rw [session]
  have done : perform deed.place deed.statement deed.session = advanceLoop loop cutBack := by
    rw [← sameLoops] at found cut
    rw [isNext]
    show continueLoop (ident?.map Ident.name) deed.session = _
    rw [continueLoop_of_index found (BoundedStack.top?_of_toList cut), sameLoops]
  rw [advanceLoop_eq (by rw [sameMemory]; exact value) numeric] at done
  have moved : (cutBack.memory.put loop.name (.number (x + loop.step))).fetch loop.name =
      .number (x + loop.step) := by
    rw [Memory.fetch_put, if_pos rfl]
  have popped : (s.loops.truncate (below.length + 1)).pop.toList = below := by
    rw [BoundedStack.toList_pop, cut]
    simp
  by_cases within : isWithin loop.step loop.limit (x + loop.step) = true
  · rw [if_pos within] at done
    have result : deed.result = .ok (.jump loop.body) := by rw [Deed.result, done]
    have goes : deed.goal? = some loop.body := by rw [Deed.goal?, result]
    have isOpen := running.open_of_goal? performed goes
    rw [if_pos within]
    rw [turn_of_goal? running.formed running.toStanding running.isOpen performed goes] at isOpen ⊢
    rw [Deed.left, done] at isOpen ⊢
    exact ⟨isOpen, moved, result, rfl, cut⟩
  · rw [if_neg within] at done
    have result : deed.result = .ok .next := by rw [Deed.result, done]
    have goes : deed.goal? = some deed.place.next := by rw [Deed.goal?, result]
    have isOpen := running.open_of_goal? performed goes
    rw [if_neg within]
    rw [turn_of_goal? running.formed running.toStanding running.isOpen performed goes] at isOpen ⊢
    rw [Deed.left, done] at isOpen ⊢
    exact ⟨isOpen, moved, result, rfl, popped⟩

end Session

/-! ## Rounds -/

/-- The values of a loop variable, one step after the other. -/
def loopValue (x step : Float) : Nat → Float
  | 0 => x
  | k + 1 => loopValue x step k + step

/-- How often a loop is run: not at all if its range is empty, and otherwise until the variable is
no longer within its limit. -/
def TripCount (x limit step : Float) (n : Nat) : Prop :=
  if isPast step limit x then n = 0
  else IsLeast { k | 1 ≤ k ∧ isWithin step limit (loopValue x step k) = false } n

/-- The sessions of a run, cycle by cycle. In between the host may do what it can do without running
the session. -/
def Cycles (sessions : Nat → Session) : Prop :=
  ∀ i, (sessions i).Open → Only callerParts (sessions i).turn.2 (sessions (i + 1))

/-- From cycle `i` on the run comes to its next `NEXT` for a loop in cycle `j`. The loop has been
open all the time, and its variable is the same as before. -/
structure Reaches (sessions : Nat → Session) (loop : Loop) (i j : Nat) : Prop where
  le : i ≤ j
  stays : ∀ m, i ≤ m → m ≤ j → loop ∈ (sessions m).loops.toList
  first : ∀ m, i ≤ m → m < j → (sessions m).deed?.any (Deed.continues loop) = false
  arrives : (sessions j).deed?.any (Deed.continues loop) = true
  unchanged : (sessions j).memory.fetch loop.name = (sessions i).memory.fetch loop.name

/-- The body of a loop is entered for the `k`-th time, counted from zero, before cycle `i`: the
`FOR` in the first cycle has opened the loop, or the `NEXT` that the body has come to goes back. -/
inductive Entry (sessions : Nat → Session) (loop : Loop) : Nat → Nat → Prop
  | first {deed : Deed} (performed : (sessions 0).deed? = some deed)
      (goesOn : deed.result = .ok .next) : Entry sessions loop 0 1
  | again {k i j : Nat} {deed : Deed} (before : Entry sessions loop k i)
      (reaches : Reaches sessions loop i j) (performed : (sessions j).deed? = some deed)
      (goesBack : deed.result = .ok (.jump loop.body)) : Entry sessions loop (k + 1) (j + 1)

section Rounds

variable {sessions : Nat → Session} {loop : Loop} {below : List Loop} {x : Float}
  {program : Program} {config : Config} {i j k n : Nat}

/-- A run comes to its next `NEXT` for a loop in one cycle only. -/
theorem Reaches.unique {j' : Nat} (first : Reaches sessions loop i j)
    (second : Reaches sessions loop i j') : j = j' := by
  rcases Nat.lt_trichotomy j j' with less | same | greater
  · cases first.arrives.symm.trans (second.first j first.le less)
  · exact same
  · cases second.arrives.symm.trans (first.first j' second.le greater)

/-- The statement that a run comes to is a `NEXT` for the loop. -/
theorem Reaches.continues (reaches : Reaches sessions loop i j) :
    ∃ deed, (sessions j).deed? = some deed ∧ deed.continues loop = true :=
  (Option.any_eq_true _ _).mp reaches.arrives

/-- The body of a loop is entered for the `k`-th time before one cycle only. -/
theorem Entry.unique {i' : Nat} (first : Entry sessions loop k i)
    (second : Entry sessions loop k i') : i = i' := by
  induction first generalizing i' with
  | first =>
      cases second
      rfl
  | again before reaches _ _ ih =>
      cases second with
      | again before' reaches' _ _ =>
          obtain rfl := ih before'
          rw [reaches.unique reaches']

/-- Entries are numbered in the order of time. -/
theorem Entry.lt {k' i' : Nat} (later : Entry sessions loop k' i')
    (sooner : Entry sessions loop k i) (less : k < k') : i < i' := by
  induction later with
  | first => omega
  | @again q p j _ before reaches _ _ ih =>
      have le := reaches.le
      rcases Nat.lt_or_eq_of_le (Nat.le_of_lt_succ less) with before' | rfl
      · have earlier := ih before'
        omega
      · rw [sooner.unique before]
        omega

/-- Entries are counted in the order of their cycles. -/
theorem Entry.lt_iff {k' i' : Nat} (first : Entry sessions loop k i)
    (second : Entry sessions loop k' i') : k < k' ↔ i < i' := by
  refine ⟨fun less => second.lt first less, fun less => ?_⟩
  by_contra notLess
  rcases Nat.lt_or_eq_of_le (Nat.le_of_not_lt notLess) with greater | rfl
  · have reversed := first.lt second greater
    omega
  · rw [first.unique second] at less
    omega

/-- Until it comes to its `NEXT`, a loop is open and those below it are as they were. -/
theorem Reaches.during (cycles : Cycles sessions) (reaches : Reaches sessions loop i j)
    (running : Running program config (sessions i))
    (start : (sessions i).loops.toList = below ++ [loop]) :
    Running program config (sessions j) ∧
      ∃ above, (sessions j).loops.toList = below ++ loop :: above := by
  have all : ∀ m, i ≤ m → m ≤ j → Running program config (sessions m) ∧
      ∃ above, (sessions m).loops.toList = below ++ loop :: above := by
    intro m above
    induction m, above using Nat.le_induction with
    | base => exact fun _ => ⟨running, [], start⟩
    | succ m above ih =>
        intro bound
        obtain ⟨running, upper, whole⟩ := ih (by omega)
        have only := cycles m running.isOpen
        have same : (sessions (m + 1)).loops = (sessions m).turn.2.loops :=
          only .loops (by decide)
        have stays := reaches.stays (m + 1) (by omega) bound
        rw [same] at stays ⊢
        obtain ⟨goes, restacks⟩ := running.turn stays
        exact ⟨goes.caller only, restacks.split running.nested whole stays⟩
  exact all j reaches.le le_rfl

/-- The body of a loop is entered for the `k`-th time: its variable has been moved on `k` times, and
it is the innermost loop. -/
structure Entered (program : Program) (config : Config) (loop : Loop) (below : List Loop)
    (x : Float) (k : Nat) (s : Session) : Prop where
  running : Running program config s
  place : s.place = loop.body
  value : s.memory.fetch loop.name = .number (loopValue x loop.step k)
  innermost : s.loops.toList = below ++ [loop]

/-- What a host does between two cycles does not change that a body is entered. -/
theorem Entered.caller {s t : Session} (entered : Entered program config loop below x k s)
    (only : Only callerParts s t) : Entered program config loop below x k t := by
  have place : t.place = s.place := only .place (by decide)
  have memory : t.memory = s.memory := only .memory (by decide)
  have loops : t.loops = s.loops := only .loops (by decide)
  refine ⟨entered.running.caller only, ?_, ?_, ?_⟩
  · rw [place]
    exact entered.place
  · rw [memory]
    exact entered.value
  · rw [loops]
    exact entered.innermost

/-- One round of a loop. -/
theorem Entered.round (cycles : Cycles sessions)
    (entered : Entered program config loop below x k (sessions i))
    (reaches : Reaches sessions loop i j) {deed : Deed}
    (performed : (sessions j).deed? = some deed) :
    if isWithin loop.step loop.limit (loopValue x loop.step (k + 1)) then
      deed.result = .ok (.jump loop.body) ∧
        Entered program config loop below x (k + 1) (sessions (j + 1))
    else
      deed.result = .ok .next ∧ (sessions (j + 1)).Open ∧
        (sessions (j + 1)).place = deed.place.next ∧
        (sessions (j + 1)).memory.fetch loop.name = .number (loopValue x loop.step (k + 1)) ∧
        (sessions (j + 1)).loops.toList = below := by
  obtain ⟨running, above, whole⟩ := reaches.during cycles entered.running entered.innermost
  have value := reaches.unchanged.trans entered.value
  obtain ⟨other, same, continues⟩ := reaches.continues
  obtain rfl := Option.some.inj (same.symm.trans performed)
  obtain ⟨isOpen, moved, goes⟩ := running.turn_of_continues whole value performed continues
  have only := cycles j running.isOpen
  show if isWithin loop.step loop.limit (loopValue x loop.step k + loop.step) then _ else _
  split at goes
  next within =>
    obtain ⟨result, place, innermost⟩ := goes
    have stays : loop ∈ (sessions j).turn.2.loops.toList := by simp [innermost]
    have next : Entered program config loop below x (k + 1) (sessions j).turn.2 :=
      ⟨(running.turn stays).1, place, moved, innermost⟩
    rw [if_pos within]
    exact ⟨result, next.caller only⟩
  next outside =>
    obtain ⟨result, place, left⟩ := goes
    have samePlace : (sessions (j + 1)).place = (sessions j).turn.2.place := only .place (by decide)
    have sameMemory : (sessions (j + 1)).memory = (sessions j).turn.2.memory :=
      only .memory (by decide)
    have sameLoops : (sessions (j + 1)).loops = (sessions j).turn.2.loops := only .loops (by decide)
    rw [if_neg outside, samePlace, sameMemory, sameLoops]
    exact ⟨result, isOpen.caller only, place, moved, left⟩

/-- A run, cycle by cycle, that begins with a `FOR` for which there is room. -/
structure StartsLoop (sessions : Nat → Session) (loop : Loop) (x : Float) : Prop where
  cycles : Cycles sessions
  reachable : Reachable (sessions 0)
  isOpen : (sessions 0).Open
  heads : (sessions 0).deed?.bind Deed.head? = some (loop, x)
  room : (leaveLoop loop.name (sessions 0).loops).depth < (sessions 0).loops.limit

/-- The loops that are open around a loop, when a `FOR` for it is the next statement. -/
def Session.around (loop : Loop) (s : Session) : List Loop :=
  (leaveLoop loop.name s.loops).toList

/-- Whenever the body is entered, the loop is where its round should begin. -/
theorem Entry.entered (starts : StartsLoop sessions loop x)
    (running : Running program config (sessions 0)) (entry : Entry sessions loop k i) :
    Entered program config loop ((sessions 0).around loop) x k (sessions i) := by
  induction entry with
  | first performed goesOn =>
      have only := starts.cycles 0 starts.isOpen
      have heads := starts.heads
      rw [performed, Option.bind_some] at heads
      obtain ⟨place, value, loops⟩ :=
        (running.turn_of_head? performed heads starts.room).2 goesOn
      have stays : loop ∈ (sessions 0).turn.2.loops.toList := by simp [loops]
      have opened : Entered program config loop ((sessions 0).around loop) x 0
          (sessions 0).turn.2 := ⟨(running.turn stays).1, place, value, loops⟩
      exact opened.caller only
  | @again k i j deed before reaches performed goesBack ih =>
      have round := ih.round starts.cycles reaches performed
      split at round
      next => exact round.2
      next =>
        rw [goesBack] at round
        cases round.1

/-- The body is entered again as long as the variable is within its limit. -/
theorem exists_entry_iff (starts : StartsLoop sessions loop x)
    (body : ∀ k i, Entry sessions loop k i → ∃ j, Reaches sessions loop i j) (k : Nat) :
    (∃ i, Entry sessions loop k i) ↔
      isPast loop.step loop.limit x = false ∧
        ∀ m, 1 ≤ m → m ≤ k → isWithin loop.step loop.limit (loopValue x loop.step m) = true := by
  obtain ⟨program, config, running⟩ := starts.reachable.running starts.isOpen
  induction k with
  | zero =>
      obtain ⟨deed, performed, heads⟩ := Option.bind_eq_some_iff.mp starts.heads
      have opens := (running.turn_of_head? performed heads starts.room).1
      constructor
      · rintro ⟨i, entry⟩
        cases entry with
        | first performed' goesOn =>
            obtain rfl := Option.some.inj (performed'.symm.trans performed)
            exact ⟨opens.mp goesOn, fun m one zero => by omega⟩
      · rintro ⟨within, -⟩
        exact ⟨1, .first performed (opens.mpr within)⟩
  | succ k ih =>
      constructor
      · rintro ⟨i, entry⟩
        cases entry with
        | @again _ i j deed before reaches performed goesBack =>
            obtain ⟨begins, within⟩ := ih.mp ⟨i, before⟩
            refine ⟨begins, fun m one bound => ?_⟩
            rcases Nat.lt_or_eq_of_le bound with less | rfl
            · exact within m one (by omega)
            · have round := (before.entered starts running).round starts.cycles reaches performed
              by_contra outside
              rw [if_neg outside, goesBack] at round
              cases round.1
      · rintro ⟨begins, within⟩
        obtain ⟨i, before⟩ := ih.mpr ⟨begins, fun m one bound => within m one (by omega)⟩
        -- That the body comes to its `NEXT` is assumed here and nowhere else.
        obtain ⟨j, reaches⟩ := body k i before
        obtain ⟨deed, performed, -⟩ := reaches.continues
        have round := (before.entered starts running).round starts.cycles reaches performed
        rw [if_pos (within (k + 1) (by omega) le_rfl)] at round
        exact ⟨j + 1, .again before reaches performed round.1⟩

/-- The rounds that a loop is run for are those before the variable leaves its limit. -/
theorem TripCount.lt_iff {limit step : Float} (counted : TripCount x limit step n) (k : Nat) :
    k < n ↔ isPast step limit x = false ∧
      ∀ m, 1 ≤ m → m ≤ k → isWithin step limit (loopValue x step m) = true := by
  unfold TripCount at counted
  split at counted
  next past =>
    subst counted
    simp [past]
  next begins =>
    obtain ⟨⟨one, outside⟩, least⟩ := counted
    refine ⟨fun less => ⟨Bool.eq_false_iff.mpr begins, fun m positive bound => ?_⟩, ?_⟩
    · by_contra leaves
      have later := least ⟨positive, Bool.eq_false_iff.mpr leaves⟩
      omega
    · rintro ⟨-, within⟩
      by_contra notLess
      rw [within n one (by omega)] at outside
      cases outside

/-- A loop that is not run for any number of rounds is run forever. -/
theorem within_of_not_tripCount {limit step : Float} (endless : ∀ n, ¬TripCount x limit step n) :
    isPast step limit x = false ∧
      ∀ m, 1 ≤ m → isWithin step limit (loopValue x step m) = true := by
  have begins : isPast step limit x = false := by
    by_contra past
    rw [Bool.not_eq_false] at past
    exact endless 0 (by simp [TripCount, past])
  refine ⟨begins, fun m one => ?_⟩
  by_contra leaves
  have ends : ∃ m, 1 ≤ m ∧ isWithin step limit (loopValue x step m) = false :=
    ⟨m, one, Bool.eq_false_iff.mpr leaves⟩
  refine endless (Nat.find ends) ?_
  rw [TripCount, begins, if_neg Bool.false_ne_true]
  exact Nat.isLeast_find ends

/-- How a loop is run. Let a run come to a `FOR` for which there is room, and let its body come to
its `NEXT` each time it is entered, with the loop still open and its variable unchanged. Then:

* when the body is entered for the `k`-th time, the run stands right after the `FOR`, the variable
  has been moved on `k` times from its start, the loop is the innermost one, and the loops around it
  are those that were there before;
* the body is entered in this order, and exactly as often as the loop is run (`TripCount`), which is
  forever if the variable never leaves its limit;
* after the last round the variable has left its limit, the loop and all loops inside it are gone,
  those around it are as they were, and the run goes on right after the `NEXT`. -/
theorem loop_rounds (starts : StartsLoop sessions loop x)
    (body : ∀ k i, Entry sessions loop k i → ∃ j, Reaches sessions loop i j) :
    (∀ k i, Entry sessions loop k i →
      (sessions i).Open ∧ (sessions i).place = loop.body ∧
        (sessions i).memory.fetch loop.name = .number (loopValue x loop.step k) ∧
        (sessions i).loops.toList = (sessions 0).around loop ++ [loop]) ∧
    (∀ k i k' i', Entry sessions loop k i → Entry sessions loop k' i' → (k < k' ↔ i < i')) ∧
    (∀ n, TripCount x loop.limit loop.step n → ∀ k, (∃ i, Entry sessions loop k i) ↔ k < n) ∧
    ((∀ n, ¬TripCount x loop.limit loop.step n) → ∀ k, ∃ i, Entry sessions loop k i) ∧
    ∀ n, TripCount x loop.limit loop.step (n + 1) →
      ∃ i j deed, Entry sessions loop n i ∧ Reaches sessions loop i j ∧
        (sessions j).deed? = some deed ∧ (sessions (j + 1)).Open ∧
        (sessions (j + 1)).place = deed.place.next ∧
        (sessions (j + 1)).memory.fetch loop.name = .number (loopValue x loop.step (n + 1)) ∧
        (sessions (j + 1)).loops.toList = (sessions 0).around loop := by
  obtain ⟨program, config, running⟩ := starts.reachable.running starts.isOpen
  have counts : ∀ n, TripCount x loop.limit loop.step n → ∀ k,
      (∃ i, Entry sessions loop k i) ↔ k < n := fun n counted k => by
    rw [exists_entry_iff starts body k, counted.lt_iff k]
  refine ⟨fun k i entry => ?_, fun k i k' i' first second => first.lt_iff second, counts,
    fun endless k => ?_, fun n counted => ?_⟩
  · have entered := entry.entered starts running
    exact ⟨entered.running.isOpen, entered.place, entered.value, entered.innermost⟩
  · obtain ⟨begins, within⟩ := within_of_not_tripCount endless
    exact (exists_entry_iff starts body k).mpr ⟨begins, fun m one _ => within m one⟩
  · obtain ⟨i, entry⟩ := (counts (n + 1) counted n).mpr (Nat.lt_succ_self n)
    obtain ⟨j, reaches⟩ := body n i entry
    obtain ⟨deed, performed, -⟩ := reaches.continues
    have round := (entry.entered starts running).round starts.cycles reaches performed
    have outside : ¬isWithin loop.step loop.limit (loopValue x loop.step (n + 1)) = true := by
      intro within
      -- otherwise there would be one more round
      have again := (counts (n + 1) counted (n + 1)).mp
      rw [if_pos within] at round
      exact absurd (again ⟨j + 1, .again entry reaches performed round.1⟩) (Nat.lt_irrefl _)
    rw [if_neg outside] at round
    exact ⟨i, j, deed, entry, reaches, performed, round.2⟩

/-- A run in which the host asks for one cycle at a time. -/
def Session.cycles (s : Session) (i : Nat) : Session :=
  (fun t : Session => (t.execute 1).2)^[i] s

/-- Running a session for one cycle at a time gives the sessions of a run. -/
theorem cycles_cycles (s : Session) : Cycles s.cycles := by
  intro i isOpen
  have next : s.cycles (i + 1) = ((s.cycles i).execute 1).2 := by
    rw [Session.cycles, Function.iterate_succ_apply']
    rfl
  have one : ((s.cycles i).cycle 1).2 = (s.cycles i).turn.2 := by
    rw [cycle]
    split
    · next turned => rw [turned]
    · next turned =>
        rw [turned]
        rfl
  rcases (s.cycles i).execute_cases with ⟨waits, -⟩ | ⟨-, outcome, ended, -⟩ | ⟨-, -, runs⟩
  · exact absurd isOpen.1 waits
  · cases isOpen.2.symm.trans ended
  · rw [next, runs, one]
    exact Std.Refl.refl _

/-- A loop is run twice, each time with another loop left open inside it. -/
theorem loop_rounds_nested :
    let source := "10 FOR I=1 TO 2\n20 FOR J=1 TO 5\n30 NEXT I\n40 PRINT I"
    let loop : Loop := ⟨"I", 2.0, 1.0, ⟨0, 1⟩⟩
    ∃ s, Session.load source { seed := 0 } ⟨2000, 1, 1, 0, 0, 0⟩ = .ok s ∧
      TripCount 1.0 2.0 1.0 2 ∧
      (∀ k, (∃ i, Entry s.cycles loop k i) ↔ k < 2) ∧
      (∀ k i, Entry s.cycles loop k i → (s.cycles i).place = ⟨0, 1⟩ ∧
        (s.cycles i).memory.fetch "I" = .number (loopValue 1.0 1.0 k) ∧
        (s.cycles i).loops.toList = [loop]) ∧
      ∃ j deed, (s.cycles j).deed? = some deed ∧ (s.cycles (j + 1)).place = deed.place.next ∧
        (s.cycles (j + 1)).memory.fetch "I" = .number 3.0 ∧
        (s.cycles (j + 1)).loops.toList = [] := by
  intro source loop
  -- the body has one statement, so it comes to the `NEXT` in the cycle after it is entered
  let round (s : Session) (i : Nat) : Bool :=
    (s.cycles i).loops.toList.contains loop && (s.cycles (i + 1)).loops.toList.contains loop &&
      !(s.cycles i).deed?.any (Deed.continues loop) &&
      (s.cycles (i + 1)).deed?.any (Deed.continues loop) &&
      (s.cycles (i + 1)).memory.fetch "I" == (s.cycles i).memory.fetch "I"
  let leaves (s : Session) : Bool :=
    s.deed?.all fun deed =>
      match deed.result with
      | .ok (.jump _) => false
      | _ => true
  let test (s : Session) : Bool :=
    decide (s.deed?.bind Deed.head? = some (loop, 1.0)) &&
      decide ((leaveLoop "I" s.loops).depth < s.loops.limit) && s.around loop == [] &&
      round s 1 && round s 3 && leaves (s.cycles 4)
  obtain ⟨s, loaded, tested⟩ : ∃ s,
      Session.load source { seed := 0 } ⟨2000, 1, 1, 0, 0, 0⟩ = .ok s ∧ test s = true :=
    exists_ok_of_any (by decide +kernel)
  simp only [test, Bool.and_eq_true, beq_iff_eq, decide_eq_true_eq] at tested
  obtain ⟨⟨⟨⟨⟨heads, room⟩, around⟩, first⟩, second⟩, last⟩ := tested
  obtain ⟨_, -, -, begins⟩ := exists_begins loaded
  have starts : StartsLoop s.cycles loop 1.0 :=
    ⟨cycles_cycles s, .load loaded, begins.isOpen, heads, room⟩
  have reaches : ∀ i, round s i = true → Reaches s.cycles loop i (i + 1) := by
    intro i found
    simp only [round, Bool.and_eq_true, List.contains_iff_mem, Bool.not_eq_true', beq_iff_eq]
      at found
    obtain ⟨⟨⟨⟨here, next⟩, before⟩, arrives⟩, unchanged⟩ := found
    refine ⟨by omega, fun m above bound => ?_, fun m above bound => ?_, arrives, unchanged⟩
    · obtain rfl | rfl : m = i ∨ m = i + 1 := by omega
      · exact here
      · exact next
    · obtain rfl : m = i := by omega
      exact before
  have entries : ∀ k i, Entry s.cycles loop k i → i = 1 ∨ i = 3 := by
    intro k i entry
    induction entry with
    | first => exact .inl rfl
    | @again k i j deed before reached performed goesBack ih =>
        rcases ih with rfl | rfl
        · rw [reached.unique (reaches 1 first)]
          exact .inr rfl
        · rw [reached.unique (reaches 3 second)] at performed
          simp [leaves, performed, goesBack] at last
  have body : ∀ k i, Entry s.cycles loop k i → ∃ j, Reaches s.cycles loop i j := by
    intro k i entry
    rcases entries k i entry with rfl | rfl
    · exact ⟨2, reaches 1 first⟩
    · exact ⟨4, reaches 3 second⟩
  have counted : TripCount 1.0 2.0 1.0 2 := by
    have begins : isPast 1.0 2.0 1.0 = false := by decide +kernel
    have within : isWithin 1.0 2.0 (loopValue 1.0 1.0 1) = true := by decide +kernel
    rw [TripCount, begins, if_neg Bool.false_ne_true]
    refine ⟨⟨by omega, by decide +kernel⟩, fun k outside => ?_⟩
    by_contra few
    obtain rfl : k = 1 := by have one := outside.1; omega
    cases within.symm.trans outside.2
  obtain ⟨entered, -, counts, -, ends⟩ := loop_rounds starts body
  obtain ⟨i, j, deed, -, -, performed, -, place, value, left⟩ := ends 1 counted
  have three : loopValue 1.0 1.0 2 = 3.0 := by decide +kernel
  refine ⟨s, loaded, counted, counts 2 counted, fun k i entry => ?_, j, deed, performed, place, ?_,
    ?_⟩
  · obtain ⟨-, place, value, innermost⟩ := entered k i entry
    rw [show (s.cycles 0).around loop = [] from around] at innermost
    exact ⟨place, value, innermost⟩
  · rw [← three]
    exact value
  · rw [left]
    exact around

end Rounds

end NumberedBasic
