import NumberedBasic.Proofs.LastDefinition
import NumberedBasic.Proofs.RunHistory
import NumberedBasic.Proofs.StackEntries

/-!
# Calls and returns

The places that a session keeps to return to are those right after the calls that no `RETURN` has
matched, innermost last. Which calls are unmatched is said of the statements that were performed
alone, without a stack: `Transfer.Balanced` are the stretches of a run in which every call has been
matched, and `Transfer.Unmatched` a run that consists of such stretches with the unmatched calls
between them.

`Deed.Handles` is all that a statement can do to the stack. From it the stack of a run is found to
be the list of the unmatched calls (`Leads.unmatched`), and the rules that a single statement keeps
to (`Deed.Disciplined`) follow for every statement of every history (`returns_match_calls`).
-/

set_option autoImplicit false

namespace NumberedBasic

/-! ## Matching calls with returns -/

/-- What a statement does to the nesting of subroutines: it calls one, to come back to a place, or
returns from one, or neither. -/
inductive Transfer where
  | call (back : Address)
  | back
  | other

namespace Transfer

/-- A stretch of a run in which every `RETURN` matches a call and every call is matched. -/
inductive Balanced : List Transfer → Prop
  | nil : Balanced []
  | other {transfers : List Transfer} (before : Balanced transfers) :
      Balanced (transfers ++ [.other])
  | pair {transfers inner : List Transfer} {a : Address} (before : Balanced transfers)
      (inside : Balanced inner) : Balanced (transfers ++ .call a :: (inner ++ [.back]))

/-- The unmatched calls of a run come back to the places `stack`: outside of them all calls are
matched. -/
inductive Unmatched : List Transfer → List Address → Prop
  | none {transfers : List Transfer} (balanced : Balanced transfers) : Unmatched transfers []
  | call {transfers later : List Transfer} {stack : List Address} {a : Address}
      (before : Unmatched transfers stack) (balanced : Balanced later) :
      Unmatched (transfers ++ .call a :: later) (stack ++ [a])

variable {transfers later : List Transfer} {stack : List Address}

/-- Balanced stretches are balanced one after the other. -/
theorem Balanced.append (h : Balanced transfers) (h' : Balanced later) :
    Balanced (transfers ++ later) := by
  induction h' with
  | nil => rwa [List.append_nil]
  | other _ ih =>
      rw [← List.append_assoc]
      exact ih.other
  | pair _ inside ih _ =>
      rw [← List.append_assoc]
      exact ih.pair inside

/-- What is balanced leaves the unmatched calls as they are. -/
theorem Unmatched.append (h : Unmatched transfers stack) (h' : Balanced later) :
    Unmatched (transfers ++ later) stack := by
  cases h with
  | none balanced => exact .none (balanced.append h')
  | call before balanced =>
      rw [List.append_assoc, List.cons_append]
      exact .call before (balanced.append h')

/-- A return matches the innermost unmatched call. -/
theorem Unmatched.back {a : Address} (h : Unmatched transfers (stack ++ [a])) :
    Unmatched (transfers ++ [.back]) stack := by
  generalize whole : stack ++ [a] = places at h
  cases h with
  | none balanced => simp at whole
  | call before balanced =>
      obtain ⟨rfl, -⟩ := List.append_inj' whole rfl
      -- the call, what came after it and the return are balanced together
      rw [List.append_assoc, List.cons_append]
      exact before.append (Balanced.nil.pair balanced)

/-- The places to come back to after some statements, if `stack` are those before them. -/
def replay (stack : List Address) (transfers : List Transfer) : List Address :=
  transfers.foldl
    (fun stack transfer =>
      match transfer with
      | .call a => stack ++ [a]
      | .back => stack.dropLast
      | .other => stack)
    stack

/-- A balanced stretch leaves the places to come back to as they were. -/
theorem Balanced.replay_eq (h : Balanced transfers) (stack : List Address) :
    replay stack transfers = stack := by
  induction h generalizing stack with
  | nil => rfl
  | other _ ih =>
      unfold replay at ih ⊢
      rw [List.foldl_append, ih]
      rfl
  | @pair _ _ a _ _ ih inner =>
      unfold replay at ih inner ⊢
      rw [List.foldl_append, ih, List.foldl_cons, List.foldl_append, inner]
      exact List.dropLast_concat

/-- The unmatched calls of a run are those that a replay keeps. -/
theorem Unmatched.replay_eq (h : Unmatched transfers stack) : replay [] transfers = stack := by
  induction h with
  | none balanced => exact balanced.replay_eq []
  | @call _ _ stack a _ balanced ih =>
      unfold replay at ih ⊢
      rw [List.foldl_append, ih, List.foldl_cons]
      exact balanced.replay_eq (stack ++ [a])

/-- There is only one way to match the returns of a run with its calls. -/
theorem Unmatched.iff_eq (h : Unmatched transfers stack) (other : List Address) :
    Unmatched transfers other ↔ other = stack := by
  constructor
  · intro h'
    rw [← h'.replay_eq, ← h.replay_eq]
  · rintro rfl
    exact h

end Transfer

namespace Session

open Effect

variable {s : Session}

/-- A call looks for its line first, and for room on the stack then. -/
theorem gosub_cases (here : Address) (n : LineNumber) (s : Session) :
    (s.program.findLine? n = none ∧
        gosub here n s = (.error { code := .undefinedLine, detail := toString n }, s)) ∨
      (∃ target fault, s.program.findLine? n = some target ∧
        s.returns.push here.next = .error fault ∧ gosub here n s = (.error fault, s)) ∨
      ∃ target grown, s.program.findLine? n = some target ∧
        s.returns.push here.next = .ok grown ∧
        gosub here n s = (.ok (.jump target), { s with returns := grown }) := by
  unfold gosub
  cases found : s.program.findLine? n with
  | none =>
      exact .inl ⟨rfl, bind_of_error (findLine_of_none found)⟩
  | some target =>
      rw [bind_of_ok (findLine_of_some found), bind_of_ok (x := Effect.get _) rfl]
      cases pushed : s.returns.push here.next with
      | error fault =>
          exact .inr (.inl ⟨target, fault, rfl, rfl, bind_of_error (x := Effect.ofExcept _) rfl⟩)
      | ok grown =>
          refine .inr (.inr ⟨target, grown, rfl, rfl, ?_⟩)
          rw [bind_of_ok (x := Effect.ofExcept _) rfl]
          exact bind_of_ok (x := Effect.modify _) rfl

/-- A `RETURN` fails where there is no place to come back to, and otherwise jumps to the last
one. -/
theorem returnBack_cases (s : Session) :
    (s.returns.top? = none ∧ returnBack s = (.error { code := .returnWithoutGosub }, s)) ∨
      ∃ target, s.returns.top? = some target ∧
        returnBack s = (.ok (.jump target), { s with returns := s.returns.pop }) := by
  unfold returnBack
  rw [bind_of_ok (x := Effect.get _) rfl]
  cases top : s.returns.top? with
  | none => exact .inl ⟨rfl, rfl⟩
  | some target => exact .inr ⟨target, rfl, bind_of_ok (x := Effect.modify _) rfl⟩

end Session

/-! ## One statement -/

open Session Effect

namespace Deed

/-- The line that a statement calls: that of a `GOSUB`, or the one that an `ON .. GOSUB` selects. -/
def called? (deed : Deed) : Option LineNumber :=
  match deed.statement with
  | .run (.gosub _ n) => some n
  | .run (.onGosub _ selector lines) =>
    match (select selector lines deed.session).1 with
    | .ok chosen => chosen
    | .error _ => none
  | _ => none

/-- Whether a statement is a `RETURN`. -/
def isReturn (deed : Deed) : Bool :=
  match deed.statement with
  | .run (.returnBack _) => true
  | _ => false

/-- What a statement does to the nesting of subroutines. A call comes back to the place right after
it. -/
def transfer (deed : Deed) : Transfer :=
  if deed.called?.isSome then .call deed.place.next
  else if deed.isReturn then .back
  else .other

/-- A `RETURN` calls no line. -/
theorem called?_of_isReturn {deed : Deed} (h : deed.isReturn = true) : deed.called? = none := by
  unfold isReturn at h
  split at h
  · next statement => rw [called?, statement]
  · cases h

/-- What a statement can do to the places that are kept to return to. -/
inductive Handles (deed : Deed) : Prop
  | undefinedLine {n : LineNumber} (calls : deed.called? = some n)
      (missing : deed.session.program.findLine? n = none)
      (fails : deed.result = .error { code := .undefinedLine, detail := toString n })
      (same : deed.left.returns = deed.session.returns)
  | full {n : LineNumber} {target : Address} {fault : Fault} (calls : deed.called? = some n)
      (found : deed.session.program.findLine? n = some target)
      (refused : deed.session.returns.push deed.place.next = .error fault)
      (fails : deed.result = .error fault) (same : deed.left.returns = deed.session.returns)
  | call {n : LineNumber} {target : Address} (calls : deed.called? = some n)
      (found : deed.session.program.findLine? n = some target)
      (pushed : deed.session.returns.push deed.place.next = .ok deed.left.returns)
      (jumps : deed.result = .ok (.jump target))
  | unmatched (calls : deed.called? = none) (returns : deed.isReturn)
      (empty : deed.session.returns.top? = none)
      (fails : deed.result = .error { code := .returnWithoutGosub })
      (same : deed.left.returns = deed.session.returns)
  | back {target : Address} (calls : deed.called? = none) (returns : deed.isReturn)
      (top : deed.session.returns.top? = some target)
      (popped : deed.left.returns = deed.session.returns.pop)
      (jumps : deed.result = .ok (.jump target))
  | other (calls : deed.called? = none) (stays : deed.isReturn = false)
      (same : deed.left.returns = deed.session.returns)

variable {program : Program} {config : Config} {deed : Deed}

/-- A statement that calls a line does so after the line has been selected, which leaves the stack
alone. -/
theorem handles_of_gosub {n : LineNumber} {t : Session} (calls : deed.called? = some n)
    (sameProgram : t.program = deed.session.program)
    (sameReturns : t.returns = deed.session.returns)
    (performs : perform deed.place deed.statement deed.session = gosub deed.place n t) :
    deed.Handles := by
  have result : deed.result = (gosub deed.place n t).1 := congrArg Prod.fst performs
  have left : deed.left = (gosub deed.place n t).2 := congrArg Prod.snd performs
  rcases gosub_cases deed.place n t with
    ⟨missing, whole⟩ | ⟨target, fault, found, refused, whole⟩ |
    ⟨target, grown, found, pushed, whole⟩
  · rw [whole] at result left
    rw [sameProgram] at missing
    refine .undefinedLine calls missing result ?_
    rw [left, sameReturns]
  · rw [whole] at result left
    rw [sameProgram] at found
    rw [sameReturns] at refused
    refine .full calls found refused result ?_
    rw [left, sameReturns]
  · rw [whole] at result left
    rw [sameProgram] at found
    refine .call calls found ?_ result
    rw [left, ← sameReturns]
    exact pushed

/-- No other statement than a call or a `RETURN` touches the stack. -/
theorem Sound.handles (formed : program.Formed) (sound : deed.Sound program config) :
    deed.Handles := by
  have only := sound.only formed .returns
  obtain ⟨session, statement⟩ := deed
  cases statement with
  | branch | skip => exact .other rfl rfl (only (by simp [Statement.footprint]))
  | run command =>
      cases command with
      | gosub column n => exact handles_of_gosub rfl rfl rfl rfl
      | onGosub column selector lines =>
          obtain ⟨-, quiet, -⟩ := (obeys_select selector lines).outcome sound.session
          -- The selector may draw random numbers, but it leaves the program and the places to
          -- return to alone.
          rcases selected : select selector lines session with ⟨result, t⟩
          rw [selected] at quiet
          have sameProgram : t.program = session.program := quiet .program (by decide)
          have sameReturns : t.returns = session.returns := quiet .returns (by decide)
          cases result with
          | error fault =>
              have calls : called? ⟨session, .run (.onGosub column selector lines)⟩ = none := by
                simp only [called?, selected]
              refine .other calls rfl ?_
              have whole : perform session.place (.run (.onGosub column selector lines)) session =
                  (.error fault, t) := bind_of_error selected
              exact (congrArg (fun done => done.2.returns) whole).trans sameReturns
          | ok chosen =>
              have calls : called? ⟨session, .run (.onGosub column selector lines)⟩ = chosen := by
                simp only [called?, selected]
              cases chosen with
              | none =>
                  refine .other calls rfl ?_
                  have whole :
                      perform session.place (.run (.onGosub column selector lines)) session =
                        (.ok .next, t) := bind_of_ok selected
                  exact (congrArg (fun done => done.2.returns) whole).trans sameReturns
              | some n => exact handles_of_gosub calls sameProgram sameReturns (bind_of_ok selected)
      | returnBack column =>
          rcases session.returnBack_cases with ⟨empty, whole⟩ | ⟨target, top, whole⟩
          · have left : left ⟨session, .run (.returnBack column)⟩ = session :=
              congrArg Prod.snd whole
            refine .unmatched rfl rfl empty (congrArg Prod.fst whole) ?_
            rw [left]
          · have left : left ⟨session, .run (.returnBack column)⟩ = _ := congrArg Prod.snd whole
            refine .back rfl rfl top ?_ (congrArg Prod.fst whole)
            rw [left]
      | _ => exact .other rfl rfl (only (by simp [Statement.footprint, Command.footprint]))

/-- A statement that the run goes on after takes the stack of the unmatched calls on to itself. -/
theorem Handles.unmatched_append (handles : deed.Handles) {target : Address}
    (goes : deed.goal? = some target) {transfers : List Transfer}
    (h : Transfer.Unmatched transfers deed.session.returns.toList) :
    Transfer.Unmatched (transfers ++ [deed.transfer]) deed.left.returns.toList ∧
      deed.left.returns.overflow = deed.session.returns.overflow := by
  -- the run does not go on after a statement that has failed
  have succeeds : ∀ fault, deed.result ≠ .error fault := by
    intro fault failed
    simp [goal?, failed] at goes
  cases handles with
  | undefinedLine _ _ fails | full _ _ _ fails | unmatched _ _ _ fails =>
      exact absurd fails (succeeds _)
  | call calls found pushed jumps =>
      obtain ⟨-, entries, overflow⟩ := BoundedStack.of_push_eq_ok pushed
      have transfer : deed.transfer = .call deed.place.next := by
        rw [Deed.transfer, calls]
        rfl
      rw [transfer, entries]
      exact ⟨h.call .nil, overflow⟩
  | back calls returns top popped jumps =>
      have transfer : deed.transfer = .back := by
        simp [Deed.transfer, calls, returns]
      rw [BoundedStack.toList_of_top? top] at h
      rw [transfer, popped]
      exact ⟨h.back, rfl⟩
  | other calls stays same =>
      have transfer : deed.transfer = .other := by
        rw [Deed.transfer, calls, stays]
        rfl
      rw [transfer, same]
      exact ⟨h.append Transfer.Balanced.nil.other, rfl⟩

/-- The rules of calls and returns for a statement that was performed while the unmatched calls were
to come back to the places `stack`. -/
structure Disciplined (limit : Nat) (stack : List Address) (deed : Deed) : Prop where
  /-- Calls are not nested deeper than they may be. -/
  bounded : stack.length ≤ limit
  /-- A call goes to its line and is to come back to the place right after it. -/
  call : ∀ n i line, deed.called? = some n → deed.session.program.lines[i]? = some line →
    line.number = n → stack.length < limit →
    deed.result = .ok (.jump ⟨i, 0⟩) ∧ deed.left.returns.toList = stack ++ [deed.place.next]
  /-- A call of a line that is not in the program fails. -/
  undefinedLine : ∀ n, deed.called? = some n → n ∉ deed.session.program.numbers →
    deed.result = .error { code := .undefinedLine, detail := toString n } ∧
      deed.left.returns = deed.session.returns
  /-- A call that would be nested too deep fails. -/
  full : ∀ n, deed.called? = some n → n ∈ deed.session.program.numbers → stack.length = limit →
    deed.result = .error { code := .outOfMemory, detail := "GOSUB STACK OVERFLOW" } ∧
      deed.left.returns = deed.session.returns
  /-- A `RETURN` goes back to where the innermost unmatched call is to come back to. -/
  back : deed.isReturn → ∀ rest target, stack = rest ++ [target] →
    deed.result = .ok (.jump target) ∧ deed.left.returns.toList = rest
  /-- A `RETURN` without a call fails. -/
  unmatched : deed.isReturn →
    (deed.result = .error { code := .returnWithoutGosub } ↔ stack = [])
  /-- No other statement changes the stack. -/
  other : deed.called? = none → deed.isReturn = false →
    deed.left.returns = deed.session.returns

/-- What a statement does to the stack keeps to the rules. -/
theorem Handles.disciplined (handles : deed.Handles)
    (ascending : Program.Ascending deed.session.program.lines)
    (overflow : deed.session.returns.overflow = "GOSUB STACK OVERFLOW") :
    deed.Disciplined deed.session.returns.limit deed.session.returns.toList := by
  have length := deed.session.returns.length_toList
  have defined : ∀ n,
      (deed.session.program.findLine? n).isSome ↔ n ∈ deed.session.program.numbers :=
    fun n => Program.findLine?_isSome_iff ascending
  -- each rule is about some of the cases of `Handles`; its hypotheses exclude the others
  constructor
  case bounded =>
    rw [length]
    exact deed.session.returns.fits
  case call =>
    intro n i line calls stands numbered room
    have found : deed.session.program.findLine? n = some ⟨i, 0⟩ :=
      (Program.findLine?_eq_some_iff ascending).mpr ⟨rfl, line, stands, numbered⟩
    cases handles with
    | undefinedLine calls' missing =>
        cases calls.symm.trans calls'
        cases found.symm.trans missing
    | full _ _ refused =>
        have atLimit := (BoundedStack.of_push_eq_error refused).1
        omega
    | call calls' found' pushed jumps =>
        cases calls.symm.trans calls'
        cases found.symm.trans found'
        exact ⟨jumps, (BoundedStack.of_push_eq_ok pushed).2.1⟩
    | unmatched calls' | back calls' | other calls' => cases calls.symm.trans calls'
  case undefinedLine =>
    intro n calls outside
    cases handles with
    | undefinedLine calls' _ fails same =>
        cases calls.symm.trans calls'
        exact ⟨fails, same⟩
    | full calls' found | call calls' found =>
        cases calls.symm.trans calls'
        exact absurd ((defined n).mp (Option.isSome_of_eq_some found)) outside
    | unmatched calls' | back calls' | other calls' => cases calls.symm.trans calls'
  case full =>
    intro n calls inside atLimit
    cases handles with
    | undefinedLine calls' missing =>
        cases calls.symm.trans calls'
        have found := (defined n).mpr inside
        rw [missing] at found
        cases found
    | full calls' found refused fails same =>
        obtain ⟨-, rfl⟩ := BoundedStack.of_push_eq_error refused
        rw [overflow] at fails
        exact ⟨fails, same⟩
    | call _ _ pushed =>
        have room := (BoundedStack.of_push_eq_ok pushed).1
        omega
    | unmatched calls' | back calls' | other calls' => cases calls.symm.trans calls'
  case back =>
    intro returns rest target whole
    have noCall := called?_of_isReturn returns
    cases handles with
    | undefinedLine calls | full calls | call calls => cases noCall.symm.trans calls
    | unmatched _ _ empty =>
        rw [BoundedStack.top?_eq_none empty] at whole
        simp at whole
    | back _ _ top popped jumps =>
        rw [BoundedStack.toList_of_top? top] at whole
        obtain ⟨same, last⟩ := List.append_inj' whole rfl
        cases last
        rw [popped]
        exact ⟨jumps, same⟩
    | other _ stays => cases returns.symm.trans stays
  case unmatched =>
    intro returns
    have noCall := called?_of_isReturn returns
    cases handles with
    | undefinedLine calls | full calls | call calls => cases noCall.symm.trans calls
    | unmatched _ _ empty fails => simp [fails, BoundedStack.top?_eq_none empty]
    | back _ _ top popped jumps => simp [jumps, BoundedStack.toList_of_top? top]
    | other _ stays => cases returns.symm.trans stays
  case other =>
    intro noCall stays
    cases handles with
    | undefinedLine calls | full calls | call calls => cases noCall.symm.trans calls
    | unmatched _ returns | back _ returns => cases returns.symm.trans stays
    | other _ _ same => exact same

end Deed

/-! ## Runs -/

variable {program : Program} {config : Config} {start s : Session} {deeds : List Deed}

/-- The stack of a run that goes on is the list of its unmatched calls. -/
theorem Leads.unmatched (begins : Begins program config start) (fresh : start.returns.toList = [])
    (detail : start.returns.overflow = "GOSUB STACK OVERFLOW") (leads : Leads start deeds s) :
    Transfer.Unmatched (deeds.map Deed.transfer) s.returns.toList ∧
      s.returns.overflow = "GOSUB STACK OVERFLOW" := by
  induction leads with
  | @start s only =>
      have same : s.returns = start.returns := only .returns (by decide)
      rw [same, fresh]
      exact ⟨.none .nil, detail⟩
  | @deed deeds deed target s t before performed goes only ih =>
      have sound := Deed.sound_of_deed? (before.standing begins).1 performed
      have session : deed.session.returns = s.returns := by
        rw [(deed?_eq_some.mp performed).2.2]
      have same : t.returns = deed.left.returns := only .returns (by decide)
      rw [← session] at ih
      obtain ⟨unmatched, overflow⟩ :=
        (sound.handles begins.formed).unmatched_append goes ih.1
      rw [List.map_append, same]
      exact ⟨unmatched, overflow.trans ih.2⟩

/-- In every run of a program that has been loaded, the places that are kept to return to are those
after the unmatched calls, innermost last, and never more than they may be. Every statement that was
performed keeps to the rules of calls and returns: the run goes on where a call or a `RETURN` leads,
and one that fails is the last statement and ends the run with its fault. -/
theorem returns_match_calls {source : String} {clock : Clock}
    (loaded : Session.load source config clock = .ok s) (acts : List Act) :
    let history := s.history.run acts
    (history.session.outcome = none → ∀ stack,
      Transfer.Unmatched (history.deeds.map Deed.transfer) stack ↔
        stack = history.session.returns.toList) ∧
    history.session.returns.toList.length ≤ config.stackLimit ∧
    ∀ front deed back, history.deeds = front ++ deed :: back →
      (∀ stack, Transfer.Unmatched (front.map Deed.transfer) stack ↔
        stack = deed.session.returns.toList) ∧
      deed.Disciplined config.stackLimit deed.session.returns.toList ∧
      (∀ target, deed.result = .ok (.jump target) → GoesOnAt target back history.session) ∧
      ∀ fault, deed.result = .error fault →
        back = [] ∧
          history.session.outcome = some (.failed (fault.inLine deed.session.line?)) := by
  intro history
  obtain ⟨program, read, rfl, begins⟩ := exists_begins loaded
  obtain ⟨listing, listed, -⟩ := exists_of_bind_eq_ok read
  have ascending := (Program.lines_of_load listed read).2.1
  have account : Account _ history.deeds history.session := account_run begins acts
  have standing : Standing program config history.session := (standing_run begins acts).1
  refine ⟨fun goes stack => ?_, ?_, fun front deed back whole => ?_⟩
  · exact ((account.leads goes).unmatched begins rfl rfl).1.iff_eq stack
  · rw [BoundedStack.length_toList, ← standing.limit]
    exact history.session.returns.fits
  · rw [whole] at account
    -- The run is taken apart at the statement: what has led to it tells which calls are unmatched,
    -- and what came after it where it has gone on.
    obtain ⟨u, leads, performed, after⟩ := account.split begins
    have sound := Deed.sound_of_deed? (leads.standing begins).1 performed
    have session : deed.session.returns = u.returns := by
      rw [(deed?_eq_some.mp performed).2.2]
    obtain ⟨unmatched, overflow⟩ := leads.unmatched begins rfl rfl
    rw [← session] at unmatched overflow
    have disciplined : deed.Disciplined deed.session.returns.limit deed.session.returns.toList := by
      refine (sound.handles begins.formed).disciplined ?_ overflow
      rw [sound.session.program_eq]
      exact ascending
    rw [sound.session.limit] at disciplined
    refine ⟨unmatched.iff_eq, disciplined, fun target jumps => ?_, fun fault fails => ?_⟩
    · rcases after with ⟨other, goes, goesOn⟩ | ⟨outcome, ends, -⟩
      · rw [Deed.goal?, jumps] at goes
        cases goes
        exact goesOn
      · rw [Deed.outcome?, jumps] at ends
        cases ends
    · rcases after with ⟨other, goes, -⟩ | ⟨outcome, ends, last, ended⟩
      · rw [Deed.goal?, fails] at goes
        cases goes
      · rw [Deed.outcome?, fails] at ends
        cases ends
        exact ⟨last, ended⟩

/-- A subroutine is called from the middle of a line, and another one from inside an `IF` in it. The
inner one comes back to the end of its line, where the outer call is the only unmatched one. -/
theorem returns_match_calls_nested :
    let source := "10 GOSUB 30:PRINT 1\n20 END\n30 IF 1 THEN ON 2 GOSUB 10,40\n35 RETURN\n40 RETURN"
    ∃ s front deed,
      Session.load source { stackLimit := 2, seed := 0 } ⟨2000, 1, 1, 0, 0, 0⟩ = .ok s ∧
      (s.history.run [.execute 4]).deeds = front ++ [deed] ∧ deed.isReturn ∧
      Transfer.Unmatched (front.map Deed.transfer) [⟨0, 1⟩, ⟨2, 2⟩] ∧
      deed.result = .ok (.jump ⟨2, 2⟩) ∧ (s.history.run [.execute 4]).session.place = ⟨2, 2⟩ ∧
      Transfer.Unmatched ((front ++ [deed]).map Deed.transfer) [⟨0, 1⟩] := by
  intro source
  let test (s : Session) : Bool :=
    let history := s.history.run [.execute 4]
    decide (history.session.outcome = none) && history.session.returns.toList == [⟨0, 1⟩] &&
      history.deeds.getLast?.any fun deed =>
        deed.isReturn && deed.session.returns.toList == [⟨0, 1⟩, ⟨2, 2⟩]
  obtain ⟨s, loaded, tested⟩ : ∃ s,
      Session.load source { stackLimit := 2, seed := 0 } ⟨2000, 1, 1, 0, 0, 0⟩ = .ok s ∧
        test s = true :=
    exists_ok_of_any (by decide +kernel)
  simp only [test, Bool.and_eq_true, decide_eq_true_eq, beq_iff_eq, Option.any_eq_true] at tested
  obtain ⟨⟨goes, left⟩, deed, last, returns, stack⟩ := tested
  obtain ⟨front, whole⟩ := List.getLast?_eq_some_iff.mp last
  obtain ⟨unmatched, -, rules⟩ := returns_match_calls loaded [.execute 4]
  obtain ⟨before, disciplined, goesOn, -⟩ := rules front deed [] whole
  have jumps := (disciplined.back returns [⟨0, 1⟩] ⟨2, 2⟩ stack).1
  refine ⟨s, front, deed, loaded, whole, returns, (before _).mpr stack.symm, jumps,
    goesOn _ jumps, ?_⟩
  rw [← whole]
  exact (unmatched goes _).mpr left.symm

end NumberedBasic
