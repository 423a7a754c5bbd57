import Mathlib.Logic.Function.Iterate
import NumberedBasic.Proofs.EvaluationRules
import NumberedBasic.Proofs.SessionInvariant

/-!
# Evaluation comes to an end

Functions that the program has defined may call themselves and each other without end, and the body
that a call evaluates is no part of the expression that makes the call. Evaluation ends all the
same, because the depth of calls is counted and a call at the greatest depth is refused.

This is shown without the room that `callUser` recurs on. `evaluateOnce` is one level of evaluation
in which each expression that has to be evaluated first is handed to a parameter, and
`recursions s e` lists what is handed to it when `e` is evaluated in `s`, in order:

* these are all there are: what the parameter does elsewhere does not matter
  (`evaluateOnce_of_recursions`);
* each has a smaller `rank`, the pair of the room left for calls and the size of the expression
  (`rank_of_mem_recursions`);
* so a finite number of levels is enough, whatever is put in place of the evaluations beyond them
  (`exists_endsWithin`).

That the room is never what stops an evaluation is `agrees_callUser`. `Agrees depth x y` says that
two effects cannot be told apart in sessions at that depth of calls.
-/

set_option autoImplicit false

namespace NumberedBasic

namespace Expr

mutual

/-- The number of nodes of an expression. -/
def size : Expr → Nat
  | .number .. | .string .. | .scalar .. => 1
  | .call _ _ arguments | .user _ _ arguments => sizeAll arguments + 1
  | .negate _ operand | .not _ operand => size operand + 1
  | .binary _ _ left right => size left + size right + 1

/-- The number of nodes of some expressions. -/
def sizeAll : List Expr → Nat
  | [] => 0
  | e :: es => size e + sizeAll es

end

/-- An expression has at most as many nodes as a list that it stands in. -/
theorem size_le_sizeAll {e : Expr} {es : List Expr} (inside : e ∈ es) : e.size ≤ sizeAll es := by
  induction es with
  | nil => cases inside
  | cons first rest ih =>
      rw [sizeAll]
      rcases List.mem_cons.mp inside with rfl | later
      · omega
      · have bound := ih later
        omega

end Expr

namespace Session

open Effect

/-! ## One level of evaluation -/

/-- The values of some expressions, from left to right, where `recur` evaluates each of them. -/
def evaluateEach (recur : Expr → Effect Value) : List Expr → Effect (List Value)
  | [] => pure []
  | e :: es => do
    let value ← recur e
    let values ← evaluateEach recur es
    return value :: values

/-- The parameters and the body of the function that a call goes into. The call is refused if the
function has not been defined, if the arguments do not suit it, or if it is nested too deep. -/
def callee (name : Name) (arguments : List Value) : Effect (List Name × Expr) := do
  match (← get Session.functions)[name]? with
  | none => fail { code := .undefinedUserFunction, detail := name }
  | some a =>
    match (← get fun s => s.program.statement? a) with
    | some (_, .run (.define _ _ parameters body)) =>
      if parameters.length ≠ arguments.length then
        fail
          { code := .illegalFunctionCall
            detail := name ++ " TAKES " ++ toString parameters.length ++ " ARGUMENT(S)" }
      else do
        ofExcept (checkArguments (parameters.map Ident.name) arguments)
        if (← get Session.callDepth) ≥ maxCallDepth then fail nestingFault
        else return (parameters.map Ident.name, body)
    | _ => fail { code := .internalError, detail := "DEF FN" }

/-- A call of a function that the program has defined, where `recur` evaluates its body. -/
def callOnce (recur : Expr → Effect Value) (name : Name) (arguments : List Value) :
    Effect Value := do
  let (parameters, body) ← callee name arguments
  let value ← shadowing parameters arguments (recur body)
  ofExcept (value.check name)
  return value

/-- One level of evaluation: `recur` evaluates the operands and the bodies of functions. -/
def evaluateOnce (recur : Expr → Effect Value) : Expr → Effect Value
  | .number _ x => pure (.number x)
  | .string _ s => pure (.string s)
  | .scalar _ i => evaluateName i.name
  | .call _ i arguments => do evaluateCall i.name (← evaluateEach recur arguments)
  | .user _ i arguments => do callOnce recur i.name (← evaluateEach recur arguments)
  | .negate _ operand => do ofExcept (← recur operand).negate
  | .not _ operand => do ofExcept (← recur operand).not
  | .binary _ op left right => do
    let x ← recur left
    let y ← recur right
    ofExcept (op.apply x y)

/-- The session in which the body of a function is evaluated. -/
def calling (parameters : List Name) (arguments : List Value) (s : Session) : Session :=
  { s with
    memory := Memory.putAll parameters arguments s.memory
    callDepth := s.callDepth + 1 }

variable {s : Session} {name : Name} {arguments : List Value}

/-- A call is refused and nothing is changed, or it goes into a function whose parameters suit the
arguments, and is not nested too deep. -/
theorem callee_cases (name : Name) (arguments : List Value) (s : Session) :
    (∃ fault, callee name arguments s = (.error fault, s)) ∨
      ∃ parameters body, callee name arguments s = (.ok (parameters, body), s) ∧
        s.callDepth < maxCallDepth ∧
        ∀ pair ∈ parameters.zip arguments, pair.2.fits pair.1 = true := by
  unfold callee
  rw [bind_of_ok (x := Effect.get _) rfl]
  cases s.functions[name]? with
  | none => exact .inl ⟨_, rfl⟩
  | some a =>
      dsimp only
      rw [bind_of_ok (x := Effect.get _) rfl]
      rcases s.program.statement? a with _ | ⟨b, _ | _ | _⟩
      case some.run command =>
        cases command with
        | define column other parameters body =>
            dsimp only
            by_cases count : parameters.length ≠ arguments.length
            · rw [if_pos count]
              exact .inl ⟨_, rfl⟩
            · rw [if_neg count]
              have suit := computes_checkArguments (parameters.map Ident.name) arguments
              cases checked : checkArguments (parameters.map Ident.name) arguments with
              | error fault => exact .inl ⟨fault, bind_of_error (x := Effect.ofExcept _) rfl⟩
              | ok _ =>
                  rw [checked] at suit
                  rw [bind_of_ok (x := Effect.ofExcept _) rfl, bind_of_ok (x := Effect.get _) rfl]
                  by_cases deep : s.callDepth ≥ maxCallDepth
                  · rw [if_pos deep]
                    exact .inl ⟨_, rfl⟩
                  · rw [if_neg deep]
                    exact .inr ⟨_, body, rfl, by omega, suit⟩
        | _ => exact .inl ⟨_, rfl⟩
      all_goals exact .inl ⟨_, rfl⟩

/-- A call that the function it names would accept. -/
def Accepts (s : Session) (name : Name) (arguments : List Value) : Prop :=
  ∃ a b column other parameters body, s.functions[name]? = some a ∧
    s.program.statement? a = some (b, .run (.define column other parameters body)) ∧
    parameters.length = arguments.length ∧
    checkArguments (parameters.map Ident.name) arguments = .ok ()

/-- A call that its function accepts goes into it, unless it is nested too deep. -/
theorem callee_of_accepted {a b : Address} {column : Span} {other : Ident}
    {parameters : List Ident} {body : Expr} (defined : s.functions[name]? = some a)
    (found : s.program.statement? a = some (b, .run (.define column other parameters body)))
    (count : parameters.length = arguments.length)
    (suit : checkArguments (parameters.map Ident.name) arguments = .ok ()) :
    callee name arguments s =
      if s.callDepth ≥ maxCallDepth then (.error nestingFault, s)
      else (.ok (parameters.map Ident.name, body), s) := by
  unfold callee
  rw [bind_of_ok (x := Effect.get _) rfl, defined]
  dsimp only
  rw [bind_of_ok (x := Effect.get _) rfl, found]
  dsimp only
  rw [if_neg (by simpa using count), suit, bind_of_ok (x := Effect.ofExcept _) rfl,
    bind_of_ok (x := Effect.get _) rfl]
  split <;> rfl

/-- A call that is nested too deep is refused before anything is done for it. -/
theorem callOnce_of_deep (deep : maxCallDepth ≤ s.callDepth) (recur : Expr → Effect Value)
    (name : Name) (arguments : List Value) :
    ∃ fault, callOnce recur name arguments s = (.error fault, s) ∧
      (s.Accepts name arguments → fault = nestingFault) := by
  rcases callee_cases name arguments s with ⟨fault, refused⟩ | ⟨_, _, _, room, _⟩
  · refine ⟨fault, bind_of_error refused, ?_⟩
    rintro ⟨a, b, column, other, parameters, body, defined, found, count, suit⟩
    have nested := callee_of_accepted defined found count suit
    rw [if_pos deep, refused] at nested
    exact Except.error.inj (congrArg Prod.fst nested)
  · omega

/-! ## The room for calls is never used up -/

/-- Two effects are the same in sessions at a depth of calls. -/
def Agrees {α : Type} (depth : Nat) (x y : Effect α) : Prop :=
  ∀ s : Session, s.callDepth = depth → x s = y s

namespace Agrees

variable {α β : Type} {depth : Nat} {x y : Effect α}

/-- An effect is the same as itself. -/
theorem refl (x : Effect α) : Agrees depth x x :=
  fun _ _ => rfl

/-- What goes on at the same depth goes on alike. -/
theorem bind {f g : α → Effect β} (level : Touches [.dice, .memory] x) (first : Agrees depth x y)
    (next : ∀ a, Agrees depth (f a) (g a)) : Agrees depth (x >>= f) (y >>= g) := by
  intro s deep
  refine bind_congr (first s deep) fun a t done => next a t ?_
  have same : (x s).2.callDepth = s.callDepth := level.only s .callDepth (by decide)
  rw [first s deep, done] at same
  exact same.trans deep

end Agrees

/-- Calls are alike if their bodies are alike one level deeper. -/
theorem agrees_shadowing {depth : Nat} {body body' : Effect Value}
    (same : Agrees (depth + 1) body body') (parameters : List Name) (arguments : List Value) :
    Agrees depth (shadowing parameters arguments body) (shadowing parameters arguments body') := by
  intro s deep
  refine bind_congr rfl fun saved _ looked => ?_
  cases looked
  refine bind_congr rfl fun _ t stored => bind_congr rfl fun _ u deeper => ?_
  have level : (storeAll parameters arguments s).2.callDepth = s.callDepth :=
    (touches_storeAll parameters arguments).only s .callDepth (by decide)
  rw [stored] at level
  have inner : u.callDepth = depth + 1 := by
    cases deeper
    exact congrArg (· + 1) (level.trans deep)
  refine bind_congr ?_ fun _ _ _ => rfl
  simp only [attempt, same u inner]

mutual

/-- An expression is evaluated alike if the functions it calls are called alike. -/
theorem agrees_evaluateWith {depth : Nat} {call call' : Name → List Value → Effect Value}
    (level : ∀ name values, Touches [.dice, .memory] (call name values))
    (same : ∀ name values, Agrees depth (call name values) (call' name values)) :
    (e : Expr) → Agrees depth (evaluateWith call e) (evaluateWith call' e)
  | .number .. | .string .. | .scalar .. => .refl _
  | .call _ _ arguments =>
      .bind (evaluative_touches.evaluateAllWith level arguments)
        (agrees_evaluateAllWith level same arguments) fun _ => .refl _
  | .user _ i arguments =>
      .bind (evaluative_touches.evaluateAllWith level arguments)
        (agrees_evaluateAllWith level same arguments) fun values => same i.name values
  | .negate _ operand | .not _ operand =>
      .bind (evaluative_touches.evaluateWith level operand)
        (agrees_evaluateWith level same operand) fun _ => .refl _
  | .binary _ _ left right =>
      .bind (evaluative_touches.evaluateWith level left) (agrees_evaluateWith level same left)
        fun _ => .bind (evaluative_touches.evaluateWith level right)
          (agrees_evaluateWith level same right) fun _ => .refl _

/-- Expressions are evaluated alike, one after another. -/
theorem agrees_evaluateAllWith {depth : Nat} {call call' : Name → List Value → Effect Value}
    (level : ∀ name values, Touches [.dice, .memory] (call name values))
    (same : ∀ name values, Agrees depth (call name values) (call' name values)) :
    (es : List Expr) → Agrees depth (evaluateAllWith call es) (evaluateAllWith call' es)
  | [] => .refl _
  | e :: es =>
      .bind (evaluative_touches.evaluateWith level e) (agrees_evaluateWith level same e) fun _ =>
        .bind (evaluative_touches.evaluateAllWith level es) (agrees_evaluateAllWith level same es)
          fun _ => .refl _

end

/-- Calls are alike if the bodies of functions are evaluated alike one level deeper. -/
theorem agrees_callOnce {depth : Nat} {recur recur' : Expr → Effect Value}
    (same : depth < maxCallDepth → ∀ body, Agrees (depth + 1) (recur body) (recur' body))
    (name : Name) (arguments : List Value) :
    Agrees depth (callOnce recur name arguments) (callOnce recur' name arguments) := by
  intro s level
  rcases callee_cases name arguments s with ⟨fault, refused⟩ | ⟨parameters, body, accepted, room, -⟩
  · unfold callOnce
    rw [bind_of_error refused, bind_of_error refused]
  · unfold callOnce
    rw [bind_of_ok accepted, bind_of_ok accepted]
    have bodies := same (level ▸ room) body
    exact bind_congr (agrees_shadowing bodies parameters arguments s level) fun _ _ _ => rfl

/-- A call with enough room does not look at the room. -/
theorem callUser_eq_callOnce {room : Nat} (enough : maxCallDepth ≤ room + s.callDepth) (name : Name)
    (arguments : List Value) :
    callUser room name arguments s =
      callOnce (evaluateWith (callUser (room - 1))) name arguments s := by
  rw [callUser.eq_def]
  unfold callOnce callee
  rw [bind_assoc, bind_of_ok (x := Effect.get _) rfl, bind_of_ok (x := Effect.get _) rfl]
  cases s.functions[name]? with
  | none => rfl
  | some a =>
      dsimp only
      rw [bind_assoc, bind_of_ok (x := Effect.get _) rfl, bind_of_ok (x := Effect.get _) rfl]
      rcases s.program.statement? a with _ | ⟨b, _ | _ | _⟩
      case some.run command =>
        cases command with
        | define column other parameters body =>
            dsimp only
            by_cases count : parameters.length ≠ arguments.length
            · rw [if_pos count, if_pos count]
              rfl
            · rw [if_neg count, if_neg count, bind_assoc]
              cases checkArguments (parameters.map Ident.name) arguments with
              | error fault => rfl
              | ok _ =>
                  rw [bind_of_ok (x := Effect.ofExcept _) rfl,
                    bind_of_ok (x := Effect.ofExcept _) rfl, bind_assoc,
                    bind_of_ok (x := Effect.get _) rfl, bind_of_ok (x := Effect.get _) rfl]
                  by_cases deep : s.callDepth ≥ maxCallDepth
                  · rw [if_pos deep, if_pos deep]
                    rfl
                  · rw [if_neg deep, if_neg deep]
                    obtain ⟨rest, rfl⟩ : ∃ rest, room = rest + 1 := ⟨room - 1, by omega⟩
                    rfl
        | _ => rfl
      all_goals rfl

/-- Calls with enough room for all that may be nested in them are alike. -/
theorem agrees_callUser {depth room room' : Nat} (enough : maxCallDepth ≤ room + depth)
    (enough' : maxCallDepth ≤ room' + depth) (name : Name) (arguments : List Value) :
    Agrees depth (callUser room name arguments) (callUser room' name arguments) := by
  -- by induction on how much deeper calls may be nested
  induction gap : maxCallDepth - depth generalizing depth room room' name arguments with
  | zero =>
      intro s level
      have deep : maxCallDepth ≤ s.callDepth := by omega
      rw [callUser_eq_callOnce (by omega), callUser_eq_callOnce (by omega)]
      exact agrees_callOnce (fun shallow => absurd shallow (by omega)) name arguments s level
  | succ gap ih =>
      intro s level
      rw [callUser_eq_callOnce (by omega), callUser_eq_callOnce (by omega)]
      refine agrees_callOnce (fun shallow body => ?_) name arguments s level
      exact agrees_evaluateWith (evaluative_touches.callUser _)
        (fun name values => ih (by omega) (by omega) name values (by omega)) body

/-- Evaluation leaves the depth of calls as it was, also if it fails. -/
theorem callDepth_evaluate (e : Expr) (s : Session) :
    (evaluate e s).2.callDepth = s.callDepth :=
  (evaluative_touches.evaluate e).only s .callDepth (by decide)

/-- Evaluating expressions in order leaves the depth of calls as it was. -/
theorem callDepth_evaluateAll (es : List Expr) (s : Session) :
    (evaluateAll es s).2.callDepth = s.callDepth :=
  (evaluative_touches.evaluateAll es).only s .callDepth (by decide)

/-- A call evaluates the body of its function like any other expression. -/
theorem callUser_eq (name : Name) (arguments : List Value) (s : Session) :
    callUser maxCallDepth name arguments s = callOnce evaluate name arguments s := by
  rw [callUser_eq_callOnce (Nat.le_add_right _ _)]
  refine agrees_callOnce (fun _ body => ?_) name arguments s rfl
  exact agrees_evaluateWith (evaluative_touches.callUser _)
    (agrees_callUser (by omega) (by omega)) body

/-! ## What is evaluated first -/

/-- The evaluations that evaluating expressions in order consists of, each with its session. -/
def recursionsAll (s : Session) : List Expr → List (Session × Expr)
  | [] => []
  | e :: es =>
    (s, e) ::
      match evaluate e s with
      | (.ok _, t) => recursionsAll t es
      | (.error _, _) => []

/-- The evaluation that a call needs: that of the body of its function, unless it is refused. -/
def recursionsOfCall (s : Session) (name : Name) (arguments : List Value) :
    List (Session × Expr) :=
  match callee name arguments s with
  | (.ok (parameters, body), t) => [(t.calling parameters arguments, body)]
  | (.error _, _) => []

/-- The evaluations that the evaluation of an expression needs, in order, each with its session. -/
def recursions (s : Session) : Expr → List (Session × Expr)
  | .number .. | .string .. | .scalar .. => []
  | .call _ _ arguments => recursionsAll s arguments
  | .user _ i arguments =>
    recursionsAll s arguments ++
      match evaluateAll arguments s with
      | (.ok values, t) => recursionsOfCall t i.name values
      | (.error _, _) => []
  | .negate _ operand | .not _ operand => recursionsAll s [operand]
  | .binary _ _ left right => recursionsAll s [left, right]

/-- What gets smaller in every evaluation that another one needs: the room left for calls, and the
size of the expression as long as that room stays the same. -/
def rank (task : Session × Expr) : Nat × Nat :=
  (maxCallDepth - task.1.callDepth, task.2.size)

/-- Expressions that are evaluated in order are evaluated at the depth at which the first one is. -/
theorem of_mem_recursionsAll {es : List Expr} {task : Session × Expr}
    (inside : task ∈ recursionsAll s es) : task.1.callDepth = s.callDepth ∧ task.2 ∈ es := by
  induction es generalizing s with
  | nil => cases inside
  | cons e es ih =>
      have level := callDepth_evaluate e s
      rw [recursionsAll, List.mem_cons] at inside
      rcases inside with rfl | inside
      · exact ⟨rfl, List.mem_cons_self⟩
      · split at inside
        · next value t done =>
            rw [done] at level
            obtain ⟨same, later⟩ := ih inside
            exact ⟨same.trans level, List.mem_cons_of_mem _ later⟩
        · cases inside

/-- The body of a function is evaluated one level deeper than its call, which has room for it. -/
theorem of_mem_recursionsOfCall {task : Session × Expr}
    (inside : task ∈ recursionsOfCall s name arguments) :
    task.1.callDepth = s.callDepth + 1 ∧ s.callDepth < maxCallDepth := by
  unfold recursionsOfCall at inside
  rcases callee_cases name arguments s with ⟨fault, refused⟩ | ⟨parameters, body, accepted, room, -⟩
  · rw [refused] at inside
    cases inside
  · rw [accepted] at inside
    obtain rfl := List.mem_singleton.mp inside
    exact ⟨rfl, room⟩

/-- At the same depth of calls, a smaller expression has a smaller rank. -/
theorem rank_of_level {task : Session × Expr} {e : Expr}
    (level : task.1.callDepth = s.callDepth) (smaller : task.2.size < e.size) :
    Prod.Lex (· < ·) (· < ·) (rank task) (rank (s, e)) := by
  unfold rank
  rw [level]
  exact .right _ smaller

/-- An evaluation that another one needs has a smaller rank. -/
theorem rank_of_mem_recursions {e : Expr} {task : Session × Expr}
    (inside : task ∈ recursions s e) :
    Prod.Lex (· < ·) (· < ·) (rank task) (rank (s, e)) := by
  have operands : ∀ {es : List Expr}, Expr.sizeAll es < e.size → task ∈ recursionsAll s es →
      Prod.Lex (· < ·) (· < ·) (rank task) (rank (s, e)) := by
    intro es smaller inside
    obtain ⟨level, member⟩ := of_mem_recursionsAll inside
    exact rank_of_level level (Nat.lt_of_le_of_lt (Expr.size_le_sizeAll member) smaller)
  cases e with
  | number | string | scalar => cases inside
  | call column name arguments => exact operands (by simp [Expr.size]) inside
  | negate column operand | not column operand =>
      exact operands (by simp [Expr.size, Expr.sizeAll]) inside
  | binary column op left right =>
      exact operands (by simp [Expr.size, Expr.sizeAll]) inside
  | user column name arguments =>
      have level := callDepth_evaluateAll arguments s
      rcases List.mem_append.mp inside with inside | inside
      · exact operands (by simp [Expr.size]) inside
      · split at inside
        · next values t done =>
            rw [done] at level
            obtain ⟨deeper, room⟩ := of_mem_recursionsOfCall inside
            refine .left _ _ ?_
            dsimp only at level ⊢
            omega
        · cases inside

/-! ## What is evaluated first is all that matters -/

/-- What a parameter stands for where it is asked. -/
def Serves (recur : Expr → Effect Value) (tasks : List (Session × Expr)) : Prop :=
  ∀ task ∈ tasks, recur task.2 task.1 = evaluate task.2 task.1

variable {recur : Expr → Effect Value}

/-- Expressions are evaluated right if each of them is where it is asked for. -/
theorem evaluateEach_of_recursions {es : List Expr} (serves : Serves recur (recursionsAll s es)) :
    evaluateEach recur es s = evaluateAll es s := by
  induction es generalizing s with
  | nil => rfl
  | cons e es ih =>
      have first : recur e s = evaluate e s := serves (s, e) List.mem_cons_self
      have later : ∀ value t, evaluate e s = (.ok value, t) →
          evaluateEach recur es t = evaluateAll es t := by
        intro value t done
        refine ih fun task inside => serves task ?_
        rw [recursionsAll, done]
        exact List.mem_cons_of_mem _ inside
      show (recur e >>= _) s = (evaluate e >>= _) s
      rcases done : evaluate e s with ⟨result, t⟩
      rw [done] at first
      cases result with
      | error fault => rw [bind_of_error first, bind_of_error done]
      | ok value =>
          rw [bind_of_ok first, bind_of_ok done]
          simp only [Bind.bind, later value t done]
          rfl

/-- Only the session in which its body starts matters to a call. -/
theorem callOnce_of_recursions (serves : Serves recur (recursionsOfCall s name arguments)) :
    callOnce recur name arguments s = callOnce evaluate name arguments s := by
  unfold callOnce
  rcases callee_cases name arguments s with ⟨fault, refused⟩ | ⟨parameters, body, accepted, -, fit⟩
  · rw [bind_of_error refused, bind_of_error refused]
  · have same : recur body (s.calling parameters arguments) =
        evaluate body (s.calling parameters arguments) := by
      refine serves (s.calling parameters arguments, body) ?_
      rw [recursionsOfCall, accepted]
      exact List.mem_singleton_self _
    have started : ∀ body : Effect Value, shadowing parameters arguments body s =
        (attempt body >>= fun result => do
          modify fun s => { s with callDepth := s.callDepth - 1 }
          storeAll parameters (parameters.map s.memory.fetch)
          Effect.ofExcept result) (s.calling parameters arguments) := by
      intro body
      unfold shadowing
      rw [bind_of_ok (x := Effect.get _) rfl, bind_of_ok (storeAll_eq fit s),
        bind_of_ok (x := Effect.modify _) rfl]
      rfl
    rw [bind_of_ok accepted, bind_of_ok accepted]
    simp only [Bind.bind, started, attempt, same]

/-- One level of evaluation asks for nothing but the evaluations that are listed. -/
theorem evaluateOnce_of_recursions {e : Expr} (serves : Serves recur (recursions s e)) :
    evaluateOnce recur e s = evaluate e s := by
  have each : ∀ {es : List Expr}, Serves recur (recursionsAll s es) →
      evaluateEach recur es s = evaluateAll es s := evaluateEach_of_recursions
  cases e with
  | number | string | scalar => rfl
  | call column name arguments =>
      show (evaluateEach recur arguments >>= _) s = (evaluateAll arguments >>= _) s
      simp only [Bind.bind, each serves]
  | negate column operand | not column operand =>
      have same : recur operand s = evaluate operand s := serves (s, operand) List.mem_cons_self
      show (recur operand >>= _) s = (evaluate operand >>= _) s
      simp only [Bind.bind, same]
  | binary column op left right =>
      have first : recur left s = evaluate left s := serves (s, left) List.mem_cons_self
      -- The right operand is evaluated in the session that the left one leaves.
      have second : ∀ value t, evaluate left s = (.ok value, t) →
          recur right t = evaluate right t := by
        intro value t done
        refine serves (t, right) ?_
        rw [recursions, recursionsAll, done]
        exact List.mem_cons_of_mem _ List.mem_cons_self
      show (recur left >>= _) s = (evaluate left >>= _) s
      rcases done : evaluate left s with ⟨result, t⟩
      rw [done] at first
      cases result with
      | error fault => rw [bind_of_error first, bind_of_error done]
      | ok value =>
          rw [bind_of_ok first, bind_of_ok done]
          simp only [Bind.bind, second value t done]
          rfl
  | user column name arguments =>
      have same := each fun task inside => serves task (List.mem_append_left _ inside)
      show (evaluateEach recur arguments >>= _) s = (evaluateAll arguments >>= _) s
      rcases done : evaluateAll arguments s with ⟨result, t⟩
      rw [done] at same
      cases result with
      | error fault => rw [bind_of_error same, bind_of_error done]
      | ok values =>
          rw [bind_of_ok same, bind_of_ok done, callUser_eq]
          refine callOnce_of_recursions fun task inside => serves task ?_
          refine List.mem_append_right _ ?_
          rw [done]
          exact inside

/-! ## A finite number of levels is enough -/

/-- So many levels of evaluation yield what evaluation yields, whatever is below them. -/
def EndsWithin (levels : Nat) (task : Session × Expr) : Prop :=
  ∀ recur, evaluateOnce^[levels] recur task.2 task.1 = evaluate task.2 task.1

/-- More levels than are enough are enough. -/
theorem EndsWithin.mono {levels more : Nat} {task : Session × Expr}
    (ends : EndsWithin levels task) (le : levels ≤ more) : EndsWithin more task := by
  intro recur
  obtain ⟨extra, rfl⟩ := Nat.exists_eq_add_of_le le
  rw [Function.iterate_add_apply]
  exact ends _

/-- There is a number of levels that is enough for all of some evaluations. -/
theorem exists_endsWithin_all {tasks : List (Session × Expr)}
    (each : ∀ task ∈ tasks, ∃ levels, EndsWithin levels task) :
    ∃ levels, ∀ task ∈ tasks, EndsWithin levels task := by
  induction tasks with
  | nil => exact ⟨0, List.forall_mem_nil _⟩
  | cons task tasks ih =>
      obtain ⟨first, ends⟩ := each task List.mem_cons_self
      obtain ⟨rest, endsAll⟩ := ih fun other inside => each other (List.mem_cons_of_mem _ inside)
      refine ⟨max first rest, List.forall_mem_cons.mpr ⟨ends.mono (Nat.le_max_left _ _), ?_⟩⟩
      exact fun other inside => (endsAll other inside).mono (Nat.le_max_right _ _)

/-- Every evaluation is done in a finite number of levels. -/
theorem exists_endsWithin (task : Session × Expr) : ∃ levels, EndsWithin levels task := by
  -- the rank decreases lexicographically, and there are finitely many evaluations to wait for
  induction task using (InvImage.wf rank (Prod.lex Nat.lt_wfRel Nat.lt_wfRel).wf).induction with
  | h task ih =>
      obtain ⟨levels, ends⟩ :=
        exists_endsWithin_all fun other inside => ih other (rank_of_mem_recursions inside)
      refine ⟨levels + 1, fun recur => ?_⟩
      rw [Function.iterate_succ_apply']
      exact evaluateOnce_of_recursions fun other inside => ends other inside recur

/-- Evaluation always ends. For every session and every expression:

* the pair of the room left for calls and the size of the expression decreases lexicographically in
  every evaluation that is needed first, and these are all that are asked for;
* a finite number of levels yields the result, whatever stands in for the evaluations below them;
* a call evaluates the body of its function like any other expression, but at the greatest depth it
  is refused, whatever would evaluate the body, and changes nothing; a call that the function would
  accept is refused for want of memory. -/
theorem evaluation_ends (s : Session) (e : Expr) :
    (∀ task ∈ recursions s e, Prod.Lex (· < ·) (· < ·)
      (100 - task.1.callDepth, task.2.size) (100 - s.callDepth, e.size)) ∧
    (∀ recur, (∀ task ∈ recursions s e, recur task.2 task.1 = evaluate task.2 task.1) →
      evaluateOnce recur e s = evaluate e s) ∧
    (∃ levels, ∀ recur, evaluateOnce^[levels] recur e s = evaluate e s) ∧
    ∀ name arguments,
      callUser maxCallDepth name arguments s = callOnce evaluate name arguments s ∧
        ∀ recur, s.callDepth = 100 →
          ∃ fault, callOnce recur name arguments s = (.error fault, s) ∧
            (s.Accepts name arguments →
              fault = { code := .outOfMemory, detail := "FN NESTING TOO DEEP" }) := by
  refine ⟨fun task inside => rank_of_mem_recursions inside,
    fun recur serves => evaluateOnce_of_recursions serves, exists_endsWithin (s, e),
    fun name arguments => ⟨callUser_eq name arguments s, fun recur level => ?_⟩⟩
  exact callOnce_of_deep (Nat.le_of_eq level.symm) recur name arguments

/-- Two functions that call each other without end. The call of the first one needs its argument and
then its body, which is the larger expression but leaves less room for calls. A hundred calls deep
the evaluation fails, and it has taken a finite number of levels. -/
theorem evaluation_ends_mutual :
    let e : Expr := .user .none (.plain "FNA") [.number .none 1.0]
    ∃ s, Reachable s ∧ rank (s, e) = (100, 2) ∧
      (recursions s e).map rank = [(100, 1), (99, 4)] ∧
      (∀ task ∈ recursions s e, Prod.Lex (· < ·) (· < ·) (rank task) (rank (s, e))) ∧
      (evaluate e s).1 = .error nestingFault ∧
      ∃ levels, ∀ recur, (evaluateOnce^[levels] recur e s).1 = .error nestingFault := by
  intro e
  let test (s : Session) : Bool :=
    let t := (s.execute 2).2
    decide (rank (t, e) = (100, 2)) && decide ((recursions t e).map rank = [(100, 1), (99, 4)]) &&
      match (evaluate e t).1 with
      | .error fault => decide (fault = nestingFault)
      | .ok _ => false
  obtain ⟨s, loaded, tested⟩ : ∃ s,
      Session.load "10 DEF FNA(X)=1+FNB(X)\n20 DEF FNB(X)=FNA(X)" { seed := 0 }
        ⟨2000, 1, 1, 0, 0, 0⟩ = .ok s ∧ test s = true :=
    exists_ok_of_any (by decide +kernel)
  simp only [test, Bool.and_eq_true, decide_eq_true_eq] at tested
  obtain ⟨⟨whole, parts⟩, failed⟩ := tested
  obtain ⟨decreases, -, ⟨levels, ends⟩, -⟩ := evaluation_ends (s.execute 2).2 e
  have fails : (evaluate e (s.execute 2).2).1 = .error nestingFault := by
    split at failed
    · next fault result => rw [result, of_decide_eq_true failed]
    · cases failed
  refine ⟨_, (Reachable.load loaded).execute 2, whole, parts, decreases, fails, levels, ?_⟩
  intro recur
  rw [ends recur]
  exact fails

end Session

end NumberedBasic
