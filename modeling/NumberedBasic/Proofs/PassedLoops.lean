import NumberedBasic.Proofs.LoopRounds
import NumberedBasic.Proofs.ProgramOrder

/-!
# Loops that are passed over

A `FOR` whose range is empty goes on behind its loop. Which `NEXT` ends the loop can be told by
names: `loopEnd?` goes through the marks that follow, `FOR` and `NEXT`, with the names of the loops
that are open, and a `NEXT` with a name closes the loop over that name and all loops inside it, as
it does when it is performed. `Program.loopExit?` only counts how many loops are open
(`loopExit?_eq`).

The two agree as long as each `NEXT` closes the innermost loop (`countedEnd?_of_isTidy`). Where one
of them closes more than one loop, or none that is open, the count is behind from there on and goes
past the `NEXT` that ends the loop (`passes_of_behind`), so the run goes on at a later one or fails.
`skipped_loop_exit` says so of all `FOR` statements of all runs.
-/

set_option autoImplicit false

namespace NumberedBasic

/-- What a statement means for the nesting of loops. -/
inductive LoopMark where
  | opens (name : Name)
  | closes (name? : Option Name)

/-- Only `FOR` and `NEXT` mean something for the nesting of loops. -/
def Statement.loopMark? : Statement → Option LoopMark
  | .run (.loop _ i _ _ _) => some (.opens i.name)
  | .run (.next _ ident?) => some (.closes (ident?.map Ident.name))
  | _ => none

namespace Program

/-- The marks among some statements. -/
def loopMarks (statements : List (Address × Statement)) : List (Address × LoopMark) :=
  statements.filterMap fun (a, statement) => statement.loopMark?.map (a, ·)

/-- Whether a `NEXT` may close a loop over `name`. -/
def mayClose (name? : Option Name) (name : Name) : Bool :=
  name?.all (· == name)

/-- The loops that stay open, innermost first, when a `NEXT` closes the innermost loop that it may
close, together with all loops inside it. -/
def closeLoops (name? : Option Name) : List Name → Option (List Name)
  | [] => none
  | name :: outer => if mayClose name? name then some outer else closeLoops name? outer

/-- The `NEXT` that ends the outermost of some open loops and where to go on then: after it if it
closes that loop, and at it if it can close none. -/
def loopEnd? : List Name → List (Address × LoopMark) → Option (Address × Address)
  | _, [] => none
  | loops, (_, .opens name) :: rest => loopEnd? (name :: loops) rest
  | loops, (a, .closes name?) :: rest =>
    match closeLoops name? loops with
    | none => some (a, a)
    | some [] => some (a, a.next)
    | some (name :: outer) => loopEnd? (name :: outer) rest

/-- Whether each `NEXT`, up to the end of the outermost of some open loops, closes the innermost one
as long as there is another one around it. -/
def isTidy : List Name → List (Address × LoopMark) → Bool
  | loops, (_, .opens name) :: rest => isTidy (name :: loops) rest
  | inner :: name :: outer, (_, .closes name?) :: rest =>
    mayClose name? inner && isTidy (name :: outer) rest
  | _, _ => true

/-- Where to go on after the loop over `v` if `depth` loops have been opened since, as told by their
number. -/
def countedEnd? (v : Name) : Nat → List (Address × LoopMark) → Option Address
  | _, [] => none
  | depth, (_, .opens _) :: rest => countedEnd? v (depth + 1) rest
  | depth + 1, (_, .closes _) :: rest => countedEnd? v depth rest
  | 0, (a, .closes name?) :: _ => some (if mayClose name? v then a.next else a)

variable {v : Name} {depth : Nat} {a : Address} {name? : Option Name} {loops left : List Name}
  {marks rest : List (Address × LoopMark)} {statements : List (Address × Statement)}

/-! ## The count -/

/-- A `FOR` or a `NEXT` in front adds its mark. -/
theorem loopMarks_cons_of_some {statement : Statement} {mark : LoopMark}
    (marked : statement.loopMark? = some mark) :
    loopMarks ((a, statement) :: statements) = (a, mark) :: loopMarks statements :=
  List.filterMap_cons_some (congrArg (Option.map (a, ·)) marked)

/-- Any other statement in front adds no mark. -/
theorem loopMarks_cons_of_none {statement : Statement} (unmarked : statement.loopMark? = none) :
    loopMarks ((a, statement) :: statements) = loopMarks statements :=
  List.filterMap_cons_none (congrArg (Option.map (a, ·)) unmarked)

/-- The walk over a loop that is passed over ends where the count of the marks after it says. -/
theorem loopExit?_eq (program : Program) (v : Name) (depth : Nat) (cursor : Address) :
    program.loopExit? v depth cursor =
      countedEnd? v depth (loopMarks (program.statementsFrom cursor)) := by
  fun_induction loopExit? program v depth cursor with
  | case1 depth cursor nothing =>
      rw [statementsFrom_of_none nothing]
      rfl
  | case2 cursor a column i first last step depth found _ ih =>
      rw [statementsFrom_of_some found, loopMarks_cons_of_some rfl, ih]
      rfl
  | case3 cursor a column other found =>
      rw [statementsFrom_of_some found, loopMarks_cons_of_some rfl]
      show some (if other.name = v then a.next else a) =
        some (if (other.name == v) = true then a.next else a)
      simp only [beq_iff_eq]
  | case4 cursor a column found =>
      rw [statementsFrom_of_some found, loopMarks_cons_of_some rfl]
      rfl
  | case5 cursor a column ident? depth found _ ih =>
      rw [statementsFrom_of_some found, loopMarks_cons_of_some rfl, ih]
      rfl
  | case6 cursor a statement found depth _ noLoop noNamed noPlain noInner ih =>
      have unmarked : statement.loopMark? = none := by
        cases statement with
        | branch | skip => rfl
        | run command =>
            cases command with
            | loop => exact (noLoop _ _ _ _ _ found rfl HEq.rfl).elim
            | next column ident? =>
                cases depth with
                | succ depth => exact (noInner _ _ _ found rfl rfl HEq.rfl).elim
                | zero =>
                    cases ident? with
                    | none => exact (noPlain _ found rfl rfl HEq.rfl).elim
                    | some i => exact (noNamed _ _ found rfl rfl HEq.rfl).elim
            | _ => rfl
      rw [statementsFrom_of_some found, loopMarks_cons_of_none unmarked, ih]

/-- Marks stand in the order of their statements. -/
theorem pairwise_loopMarks (ordered : statements.Pairwise Sooner) :
    (loopMarks statements).Pairwise fun first second => first.1.isBefore second.1 = true := by
  refine List.Pairwise.filterMap _ (fun first second sooner mark found other found' => ?_) ordered
  obtain ⟨_, -, rfl⟩ := Option.map_eq_some_iff.mp found
  obtain ⟨_, -, rfl⟩ := Option.map_eq_some_iff.mp found'
  exact sooner

/-- Counting ends a loop at one of the `NEXT` that follow. -/
theorem exists_of_countedEnd? {target : Address} (found : countedEnd? v depth marks = some target) :
    ∃ a name?, (a, .closes name?) ∈ marks ∧ (target = a ∨ target = a.next) := by
  fun_induction countedEnd? v depth marks with
  | case1 => cases found
  | case2 depth a name rest ih =>
      obtain ⟨b, name?, inside, goes⟩ := ih found
      exact ⟨b, name?, List.mem_cons_of_mem _ inside, goes⟩
  | case3 depth a name? rest ih =>
      obtain ⟨b, name?, inside, goes⟩ := ih found
      exact ⟨b, name?, List.mem_cons_of_mem _ inside, goes⟩
  | case4 a name? rest =>
      rw [Option.some.injEq] at found
      refine ⟨a, name?, List.mem_cons_self, ?_⟩
      split at found
      · exact .inr found.symm
      · exact .inl found.symm

/-! ## The count and the names -/

/-- A `NEXT` closes at least one loop. -/
theorem length_lt_of_closeLoops (closed : closeLoops name? loops = some left) :
    left.length < loops.length := by
  induction loops with
  | nil => cases closed
  | cons name outer ih =>
      unfold closeLoops at closed
      rw [List.length_cons]
      split at closed
      · cases closed
        omega
      · have shorter := ih closed
        omega

/-- As long as each `NEXT` closes the innermost loop, it is enough to count the loops that were
opened since. -/
theorem countedEnd?_of_isTidy {inner : List Name} (tidy : isTidy (inner ++ [v]) marks = true) :
    countedEnd? v inner.length marks = (loopEnd? (inner ++ [v]) marks).map Prod.snd := by
  induction marks generalizing inner with
  | nil => simp [countedEnd?, loopEnd?]
  | cons entry rest ih =>
      obtain ⟨a, mark⟩ := entry
      cases mark with
      | opens name =>
          rw [countedEnd?, loopEnd?]
          rw [isTidy] at tidy
          exact @ih (name :: inner) tidy
      | closes name? =>
          cases inner with
          | nil =>
              rw [List.length_nil, countedEnd?, List.nil_append, loopEnd?, closeLoops, closeLoops]
              by_cases closes : mayClose name? v = true
              · simp [closes]
              · simp [closes]
          | cons first inner =>
              obtain ⟨name, outer, more⟩ : ∃ name outer, inner ++ [v] = name :: outer :=
                List.exists_cons_of_ne_nil (by simp)
              rw [List.cons_append, more, isTidy, Bool.and_eq_true, ← more] at tidy
              rw [List.length_cons, countedEnd?, List.cons_append, loopEnd?, closeLoops,
                if_pos tidy.1, ih tidy.2, more]

/-- If no `NEXT` ends the loop, counting finds none either. -/
theorem countedEnd?_eq_none (behind : loops.length ≤ depth + 1)
    (endless : loopEnd? loops marks = none) : countedEnd? v depth marks = none := by
  induction marks generalizing loops depth with
  | nil => rw [countedEnd?]
  | cons entry rest ih =>
      obtain ⟨a, mark⟩ := entry
      cases mark with
      | opens name =>
          rw [loopEnd?] at endless
          rw [countedEnd?]
          exact ih (by rw [List.length_cons]; omega) endless
      | closes name? =>
          rw [loopEnd?] at endless
          split at endless
          next => cases endless
          next => cases endless
          next name outer closed =>
            have shorter := length_lt_of_closeLoops closed
            rw [List.length_cons] at shorter
            obtain ⟨less, rfl⟩ : ∃ less, depth = less + 1 := ⟨depth - 1, by omega⟩
            rw [countedEnd?]
            exact ih (by rw [List.length_cons]; omega) endless

/-- Counting goes past the mark at `a`: the loop is ended by one of those behind it, if at all. -/
def Passes (v : Name) (depth : Nat) (a : Address) (marks : List (Address × LoopMark)) : Prop :=
  ∃ front mark back depth', marks = front ++ (a, mark) :: back ∧
    countedEnd? v depth marks = countedEnd? v depth' back

/-- Counting still goes past a mark when a further one is counted before. -/
theorem Passes.cons {entry : Address × LoopMark} {depth' : Nat} (passes : Passes v depth a rest)
    (same : countedEnd? v depth' (entry :: rest) = countedEnd? v depth rest) :
    Passes v depth' a (entry :: rest) := by
  obtain ⟨front, mark, back, later, whole, goes⟩ := passes
  refine ⟨entry :: front, mark, back, later, ?_, same.trans goes⟩
  rw [whole, List.cons_append]

/-- A count that is behind goes past the `NEXT` that ends the loop. -/
theorem passes_of_behind {target : Address} (behind : loops.length ≤ depth)
    (open_ : loops ≠ []) (ends : loopEnd? loops marks = some (a, target)) :
    Passes v depth a marks := by
  induction marks generalizing loops depth with
  | nil => rw [loopEnd?] at ends; cases ends
  | cons entry rest ih =>
      obtain ⟨b, mark⟩ := entry
      cases mark with
      | opens name =>
          rw [loopEnd?] at ends
          have longer : (name :: loops).length ≤ depth + 1 := Nat.succ_le_succ behind
          exact (ih longer (List.cons_ne_nil _ _) ends).cons (by rw [countedEnd?])
      | closes name? =>
          have nonempty := List.length_pos_iff.mpr open_
          obtain ⟨less, rfl⟩ : ∃ less, depth = less + 1 := ⟨depth - 1, by omega⟩
          have same : countedEnd? v (less + 1) ((b, .closes name?) :: rest) =
              countedEnd? v less rest := by rw [countedEnd?]
          have here : Passes v (less + 1) b ((b, .closes name?) :: rest) :=
            ⟨[], _, rest, less, rfl, same⟩
          rw [loopEnd?] at ends
          split at ends
          next =>
            cases ends
            exact here
          next =>
            cases ends
            exact here
          next name outer closed =>
            have shorter := length_lt_of_closeLoops closed
            exact (ih (by omega) (List.cons_ne_nil _ _) ends).cons same

/-- If a `NEXT` does not close the innermost loop, counting goes past the `NEXT` that ends the
loop. -/
theorem passes_of_not_isTidy {target : Address} (counted : loops.length = depth + 1)
    (untidy : isTidy loops marks = false) (ends : loopEnd? loops marks = some (a, target)) :
    Passes v depth a marks := by
  induction marks generalizing loops depth with
  | nil => rw [loopEnd?] at ends; cases ends
  | cons entry rest ih =>
      obtain ⟨b, mark⟩ := entry
      cases mark with
      | opens name =>
          rw [loopEnd?] at ends
          rw [isTidy] at untidy
          have longer : (name :: loops).length = depth + 1 + 1 := by rw [List.length_cons, counted]
          exact (ih longer untidy ends).cons (by rw [countedEnd?])
      | closes name? =>
          -- with one loop open nothing can be untidy
          obtain ⟨inner, name, outer, rfl⟩ :
              ∃ inner name outer, loops = inner :: name :: outer := by
            match loops with
            | [] => cases counted
            | [_] => simp [isTidy] at untidy
            | inner :: name :: outer => exact ⟨inner, name, outer, rfl⟩
          obtain rfl : depth = outer.length + 1 := by simpa using counted.symm
          have same : countedEnd? v (outer.length + 1) ((b, .closes name?) :: rest) =
              countedEnd? v outer.length rest := by rw [countedEnd?]
          rw [isTidy] at untidy
          rw [loopEnd?] at ends
          cases closes : mayClose name? inner with
          | true =>
              rw [closes, Bool.true_and] at untidy
              rw [closeLoops, if_pos closes] at ends
              exact (ih rfl untidy ends).cons same
          | false =>
              rw [closeLoops, if_neg (by rw [closes]; exact Bool.false_ne_true)] at ends
              split at ends
              next =>
                cases ends
                exact ⟨[], _, rest, _, rfl, same⟩
              next =>
                cases ends
                exact ⟨[], _, rest, _, rfl, same⟩
              next first left closed =>
                have shorter := length_lt_of_closeLoops closed
                refine (passes_of_behind ?_ (List.cons_ne_nil _ _) ends).cons same
                simp only [List.length_cons] at shorter ⊢
                omega

/-- A mark behind another one stands at a later place. -/
theorem isBefore_of_split {front back : List (Address × LoopMark)} {mark : LoopMark}
    (ordered : marks.Pairwise fun first second => first.1.isBefore second.1 = true)
    (whole : marks = front ++ (a, mark) :: back) {entry : Address × LoopMark}
    (inside : entry ∈ back) : a.isBefore entry.1 = true := by
  rw [whole] at ordered
  exact (List.pairwise_cons.mp (List.pairwise_append.mp ordered).2.1).1 entry inside

/-- The marks after a place. -/
def marksAfter (program : Program) (a : Address) : List (Address × LoopMark) :=
  loopMarks (program.statementsAfter a)

end Program

open Session Effect

/-! ## `FOR` with an empty range -/

/-- The variable of a `FOR` whose range is found to be empty. -/
def Deed.skippedLoop? (deed : Deed) : Option Name :=
  deed.head?.bind fun (loop, x) =>
    if isPast loop.step loop.limit x then some loop.name else none

variable {program : Program} {config : Config} {s : Session} {deed : Deed} {v : Name}

/-- The run goes on where the count says, and fails if it finds nothing. -/
theorem Deed.result_of_skippedLoop? (sound : deed.Sound program config)
    (skips : deed.skippedLoop? = some v) :
    deed.result =
      match Program.countedEnd? v 0 (program.marksAfter deed.place) with
      | some target => .ok (.jump target)
      | none => .error { code := .forWithoutNext, detail := v } := by
  obtain ⟨⟨loop, x⟩, heads, empty⟩ := Option.bind_eq_some_iff.mp skips
  rw [Option.ite_none_right_eq_some, Option.some.injEq] at empty
  obtain ⟨past, rfl⟩ := empty
  obtain ⟨column, i, first, last, step, t, named, isLoop, head, -⟩ := exists_of_head? heads
  have only := ((obeys_loopHead loop.name first last step).outcome sound.session).2.1
  rw [head] at only
  have sameProgram : t.program = deed.session.program := only .program (by decide)
  have performed : deed.result =
      (openLoop deed.place loop.name x loop.limit loop.step t).1 := by
    rw [Deed.result, isLoop]
    show (enterLoop deed.place i.name first last step deed.session).1 = _
    rw [named, enterLoop_eq, bind_of_ok head]
  rw [performed, openLoop_of_past deed.place loop.name t past, skipLoop_eq]
  dsimp only
  rw [sameProgram, sound.session.program_eq, Program.loopExit?_eq, ← Program.statementsAfter_eq]
  rfl

/-- Where a run goes on when it comes to a `FOR` over `v` whose range is empty. Let the loops that
are open after it be told by their names, those that the marks behind it open and close.

* If no `NEXT` closes the loop over `v` or stops because it can close none, the `FOR` fails.
* If one does, and every `NEXT` up to it closes the innermost loop as long as others are around it,
  the run goes on after that `NEXT`, or at it if it can close none.
* If one of them does not, the `FOR` goes past the `NEXT` that ends its loop: it fails, or the run
  goes on at a later `NEXT` or after that. -/
theorem skipped_loop_exit (reachable : Reachable s) (performed : s.deed? = some deed)
    (skips : deed.skippedLoop? = some v) :
    let marks := s.program.marksAfter deed.place
    (Program.loopEnd? [v] marks = none →
      deed.result = .error { code := .forWithoutNext, detail := v }) ∧
    ∀ next target, Program.loopEnd? [v] marks = some (next, target) →
      (Program.isTidy [v] marks = true → deed.result = .ok (.jump target)) ∧
      (Program.isTidy [v] marks = false →
        deed.result = .error { code := .forWithoutNext, detail := v } ∨
          ∃ later name?, (later, .closes name?) ∈ marks ∧ next.isBefore later = true ∧
            (deed.result = .ok (.jump later) ∨ deed.result = .ok (.jump later.next))) := by
  intro marks
  obtain ⟨program, config, formed, standing⟩ := reachable.standing
  have result := Deed.result_of_skippedLoop? (Deed.sound_of_deed? standing performed) skips
  rw [← standing.program_eq] at result
  refine ⟨fun endless => ?_, fun next target ends => ⟨fun tidy => ?_, fun untidy => ?_⟩⟩
  · rw [result, Program.countedEnd?_eq_none (Nat.le_refl 1) endless]
  · have counted := @Program.countedEnd?_of_isTidy v marks [] tidy
    rw [List.length_nil, List.nil_append, ends] at counted
    rw [result, counted]
    rfl
  · have passes : Program.Passes v 0 next marks := Program.passes_of_not_isTidy rfl untidy ends
    obtain ⟨front, mark, back, depth, whole, same⟩ := passes
    rw [result, same]
    cases found : Program.countedEnd? v depth back with
    | none => exact .inl rfl
    | some goal =>
        obtain ⟨later, name?, inside, goes⟩ := Program.exists_of_countedEnd? found
        have ordered : (s.program.statementsAfter deed.place).Pairwise Program.Sooner :=
          (Program.pairwise_statements s.program).filter _
        have behind := Program.isBefore_of_split (Program.pairwise_loopMarks ordered) whole inside
        refine .inr ⟨later, name?, ?_, behind, ?_⟩
        · rw [whole]
          exact List.mem_append_right _ (List.mem_cons_of_mem _ inside)
        · rcases goes with rfl | rfl
          · exact .inl rfl
          · exact .inr rfl

/-- Three loops are nested, the inner ones are closed by one `NEXT` without a name and by a list,
and the run goes on after the last name of the list. -/
theorem skipped_loop_exit_nested :
    let source := "10 FOR I=1 TO 0:FOR J=1 TO 2\n20 FOR K=3 TO 1 STEP -1:NEXT\n30 NEXT J,I:PRINT I"
    ∃ s deed, Session.load source { seed := 0 } ⟨2000, 1, 1, 0, 0, 0⟩ = .ok s ∧
      s.deed? = some deed ∧ deed.skippedLoop? = some "I" ∧ deed.place = ⟨0, 0⟩ ∧
      Program.loopEnd? ["I"] (s.program.marksAfter ⟨0, 0⟩) = some (⟨2, 1⟩, ⟨2, 2⟩) ∧
      deed.result = .ok (.jump ⟨2, 2⟩) := by
  intro source
  let test (s : Session) : Bool :=
    s.deed?.any fun deed =>
      deed.skippedLoop? == some "I" && deed.place == ⟨0, 0⟩ &&
        Program.loopEnd? ["I"] (s.program.marksAfter ⟨0, 0⟩) == some (⟨2, 1⟩, ⟨2, 2⟩) &&
        Program.isTidy ["I"] (s.program.marksAfter ⟨0, 0⟩)
  obtain ⟨s, loaded, tested⟩ : ∃ s,
      Session.load source { seed := 0 } ⟨2000, 1, 1, 0, 0, 0⟩ = .ok s ∧ test s = true :=
    exists_ok_of_any (by decide +kernel)
  obtain ⟨deed, performed, passed⟩ := (Option.any_eq_true _ _).mp tested
  simp only [Bool.and_eq_true, beq_iff_eq] at passed
  obtain ⟨⟨⟨skips, place⟩, ends⟩, tidy⟩ := passed
  have exit := (skipped_loop_exit (.load loaded) performed skips).2 ⟨2, 1⟩ ⟨2, 2⟩
  rw [place] at exit
  exact ⟨s, deed, loaded, performed, skips, place, ends, (exit ends).1 tidy⟩

/-- The next statement of a session skips a loop over `I`. That loop has a `NEXT` in the third line,
but the statement fails for want of one. -/
def missesLoopEnd (s : Session) : Bool :=
  s.deed?.any fun deed =>
    deed.skippedLoop? == some "I" &&
      Program.loopEnd? ["I"] (s.program.marksAfter deed.place) == some (⟨2, 0⟩, ⟨2, 1⟩) &&
      match deed.result with
      | .error other => other == { code := .forWithoutNext, detail := "I" }
      | .ok _ => false

/-- A `NEXT` that closes two loops at once ends the loop over `I`, so the run should go on after it;
but the `FOR` takes it to close the inner loop only, and fails. -/
theorem skipped_loop_fails :
    let source := "10 FOR I=1 TO 0\n20 FOR J=1 TO 2\n30 NEXT I\n40 PRINT \"DONE\""
    ∃ s deed, Session.load source { seed := 0 } ⟨2000, 1, 1, 0, 0, 0⟩ = .ok s ∧
      s.deed? = some deed ∧ deed.skippedLoop? = some "I" ∧
      Program.loopEnd? ["I"] (s.program.marksAfter deed.place) = some (⟨2, 0⟩, ⟨2, 1⟩) ∧
      deed.result = .error { code := .forWithoutNext, detail := "I" } := by
  intro source
  obtain ⟨s, loaded, tested⟩ : ∃ s,
      Session.load source { seed := 0 } ⟨2000, 1, 1, 0, 0, 0⟩ = .ok s ∧ missesLoopEnd s = true :=
    exists_ok_of_any (by decide +kernel)
  obtain ⟨deed, performed, passed⟩ := (Option.any_eq_true _ _).mp tested
  simp only [Bool.and_eq_true, beq_iff_eq] at passed
  obtain ⟨⟨skips, ends⟩, failed⟩ := passed
  refine ⟨s, deed, loaded, performed, skips, ends, ?_⟩
  cases result : deed.result with
  | ok course =>
      rw [result] at failed
      cases failed
  | error other =>
      rw [result] at failed
      rw [beq_iff_eq.mp failed]

end NumberedBasic
