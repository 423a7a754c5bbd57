import NumberedBasic.Proofs.EvaluationEnds
import NumberedBasic.Proofs.EvaluationRules
import NumberedBasic.Proofs.ValueTypes

/-!
# Parameters stand for arguments

A call passes its arguments by assigning them to the variables that its parameters name, so what a
parameter reads as in the body depends on all that the calls nested in the body do to variables of
the same name. Each of them puts back what it has found: wherever an evaluation yields a value, all
variables read as before (`completes_evaluate`). No assumption on the session is needed for this. An
old value that could not be put back would be a fault, after which nothing of the body is evaluated.

It follows that a parameter reads as its argument wherever the evaluation of the body comes to it
(`Visits.quiet`), and that the body may be evaluated with the arguments themselves in the places of
the parameters (`evaluate_instantiate`). The names of the three built-in functions that need no
arguments are the exception: as a parameter, such a name is given its argument, but in the body it
stands for the function (`builtin_hides_parameter`).
-/

set_option autoImplicit false

namespace NumberedBasic

/-! ## Evaluations that yield a value -/

namespace Effect

variable {α : Type} {R : Session → Session → Prop}

/-- Where an effect yields a value, the session it leaves is related to that it was started in. -/
abbrev Completes (R : Session → Session → Prop) (x : Effect α) : Prop :=
  Ensures (fun _ => True) R (fun _ _ _ => True) (fun _ => True) x

instance : Absorbs R fun _ _ _ => True where
  absorb _ _ := trivial

namespace Completes

variable {x : Effect α}

/-- The two sessions are related. -/
theorem of_ok (h : Completes R x) {s t : Session} {a : α} (done : x s = (.ok a, t)) : R s t :=
  ((h s trivial).1 a t done).2.1

/-- A result that does not depend on the session. -/
theorem ofExcept [IsPreorder Session R] (result : Except Fault α) :
    Completes R (ofExcept result) := by
  intro s _
  refine ⟨fun a t done => ?_, fun _ _ _ => trivial⟩
  cases done
  exact ⟨trivial, Std.Refl.refl s, trivial⟩

end Completes

end Effect

namespace Session

open Effect

variable {s t : Session} {parameters : List Name} {arguments : List Value}

/-- Only a value that fits is assigned. -/
theorem fits_of_store {name : Name} {value : Value} (done : store name value s = (.ok (), t)) :
    value.fits name = true := by
  obtain ⟨memory, _, -, done⟩ := exists_of_bind done
  obtain ⟨updated, _, stored, -⟩ := exists_of_bind done
  have yields : memory.store name value = .ok updated := congrArg Prod.fst stored
  have settled := memory.computes_store name value
  rw [yields] at settled
  exact settled.2

/-- What has been assigned has been written. -/
theorem storeAll_of_ok {names : List Name} {values : List Value}
    (done : storeAll names values s = (.ok (), t)) :
    t = { s with memory := Memory.putAll names values s.memory } := by
  induction names generalizing values s with
  | nil =>
      cases done
      rfl
  | cons name names ih =>
      cases values with
      | nil =>
          cases done
          rfl
      | cons value values =>
          obtain ⟨_, u, first, rest⟩ := exists_of_bind done
          rw [store_eq (fits_of_store first)] at first
          cases first
          exact ih rest

/-- A call whose body leaves all variables as they were does so too: it yields a value only after
the old values have been put back. -/
theorem completes_shadowing {body : Effect Value} (calm : Completes Quiet body) :
    Completes Quiet (shadowing parameters arguments body) := by
  refine fun s _ => ⟨fun value t done => ⟨trivial, ?_, trivial⟩, fun _ _ _ => trivial⟩
  obtain ⟨saved, _, looked, done⟩ := exists_of_bind done
  cases looked
  obtain ⟨_, _, stored, done⟩ := exists_of_bind done
  obtain rfl := storeAll_of_ok stored
  obtain ⟨_, inner, deeper, done⟩ := exists_of_bind done
  obtain rfl : inner = s.calling parameters arguments := (congrArg Prod.snd deeper).symm
  obtain ⟨result, left, tried, done⟩ := exists_of_bind done
  have ran : body (s.calling parameters arguments) = (result, left) := by
    cases tried
    rfl
  obtain ⟨_, _, shallower, done⟩ := exists_of_bind done
  cases shallower
  obtain ⟨_, _, restored, yields⟩ := exists_of_bind done
  obtain rfl := storeAll_of_ok restored
  cases yields
  exact (calm.of_ok ran).restored

/-- The steps of an evaluation that yield a value are quiet. -/
theorem evaluative_completes : Evaluative (Completes Quiet) where
  get _ := Ensures.look _
  result _ := Completes.ofExcept _
  roll dice := by
    refine Ensures.modify fun s _ => ⟨trivial, fun part => ?_, rfl, fun _ => rfl⟩
    cases part <;> simp
  bind first next := first.bind fun a _ => next a
  shadowing _ _ _ := completes_shadowing

/-- An evaluation that yields a value leaves all variables as they were, in every session. -/
theorem completes_evaluate (e : Expr) : Completes Quiet (evaluate e) :=
  evaluative_completes.evaluate e

/-! ## Where an evaluation comes to -/

/-- An evaluation comes to a part of its expression: to the whole, or to a part of what it needs
first. What it needs at a greater depth of calls is the body of another function and no part of the
expression. -/
inductive Visits : Session × Expr → Session × Expr → Prop
  | whole (task : Session × Expr) : Visits task task
  | part {s : Session} {e : Expr} {task other : Session × Expr} (needed : task ∈ recursions s e)
      (level : task.1.callDepth = s.callDepth) (visits : Visits task other) : Visits (s, e) other

/-- Expressions that are evaluated in order find all variables as the first one does. -/
theorem quiet_of_mem_recursionsAll {es : List Expr} {task : Session × Expr}
    (inside : task ∈ recursionsAll s es) : Quiet s task.1 := by
  induction es generalizing s with
  | nil => cases inside
  | cons e es ih =>
      rw [recursionsAll, List.mem_cons] at inside
      rcases inside with rfl | inside
      · exact Std.Refl.refl _
      · split at inside
        · next value t done =>
            exact IsTrans.trans _ _ _ ((completes_evaluate e).of_ok done) (ih inside)
        · cases inside

/-- The parts of an expression find all variables as its evaluation has found them. -/
theorem Visits.quiet {task other : Session × Expr} (visits : Visits task other) :
    Quiet task.1 other.1 := by
  induction visits with
  | whole task => exact Std.Refl.refl _
  | @part s e task other needed level visits ih =>
      refine IsTrans.trans _ _ _ ?_ ih
      cases e with
      | number | string | scalar => cases needed
      | call column name arguments => exact quiet_of_mem_recursionsAll needed
      | negate column operand | not column operand => exact quiet_of_mem_recursionsAll needed
      | binary column op left right => exact quiet_of_mem_recursionsAll needed
      | user column name arguments =>
          rcases List.mem_append.mp needed with needed | needed
          · exact quiet_of_mem_recursionsAll needed
          · -- the body of the function is evaluated one level deeper
            have before := callDepth_evaluateAll arguments s
            split at needed
            · next values t done =>
                rw [done] at before
                have deeper := (of_mem_recursionsOfCall needed).1
                dsimp only at before
                omega
            · cases needed

end Session

/-! ## Names that stand for built-in functions -/

/-- The names of the built-in functions that need no arguments. -/
def Builtin.bareNames : List Name :=
  ["DATE$", "RND", "TIME$"]

/-- A built-in function that needs no arguments is among those named alone. -/
theorem Builtin.mem_bareNames {b : Builtin} (bare : b.arity.1 = 0) : b.name ∈ bareNames := by
  cases b <;> first | decide +kernel | cases bare

/-- A built-in function is found under its name. -/
theorem Builtin.ofName?_name (b : Builtin) : ofName? b.name = some b := by
  cases b <;> decide +kernel

namespace Session

open Effect

/-- Every other name stands for a variable. -/
theorem evaluateName_of_variable {name : Name} (free : name ∉ Builtin.bareNames) :
    evaluateName name = Effect.get (·.memory.fetch name) := by
  unfold evaluateName
  split
  · next b found =>
      refine if_neg fun bare => free ?_
      rw [← Builtin.name_of_ofName? found]
      exact Builtin.mem_bareNames bare
  · rfl

/-- Such a name stands for the function, whatever the variable of that name holds. -/
theorem evaluateName_of_bare {b : Builtin} (bare : b.arity.1 = 0) :
    evaluateName b.name = callBuiltin b [] := by
  unfold evaluateName
  rw [b.ofName?_name]
  exact if_pos bare

end Session

/-! ## Arguments in the places of parameters -/

/-- The expression that stands for a value. -/
def Value.literal (column : Span) : Value → Expr
  | .number x => .number column x
  | .string s => .string column s

namespace Expr

mutual

/-- The expression with values in the places of the names that `binding` has one for. -/
def instantiate (binding : Name → Option Value) : Expr → Expr
  | .number column x => .number column x
  | .string column s => .string column s
  | .scalar column i =>
    match binding i.name with
    | some value => value.literal column
    | none => .scalar column i
  | .call column i arguments => .call column i (instantiateAll binding arguments)
  | .user column i arguments => .user column i (instantiateAll binding arguments)
  | .negate column operand => .negate column (instantiate binding operand)
  | .not column operand => .not column (instantiate binding operand)
  | .binary column op left right =>
    .binary column op (instantiate binding left) (instantiate binding right)

/-- Some expressions with values in the places of names. -/
def instantiateAll (binding : Name → Option Value) : List Expr → List Expr
  | [] => []
  | e :: es => instantiate binding e :: instantiateAll binding es

end

end Expr

namespace Session

open Effect

/-- The names that a binding has a value for stand for variables that hold this value. -/
def Binds (binding : Name → Option Value) (s : Session) : Prop :=
  ∀ name value, binding name = some value →
    name ∉ Builtin.bareNames ∧ s.memory.fetch name = value

variable {s t : Session} {binding : Name → Option Value}

/-- A quiet step changes no variable that a binding has a value for. -/
theorem Binds.of_quiet (binds : Binds binding s) (quiet : Quiet s t) : Binds binding t := by
  intro name value bound
  rw [quiet.fetch name]
  exact binds name value bound

mutual

/-- Values in the places of names that stand for them make no difference. -/
theorem evaluateWith_instantiate {call : Name → List Value → Effect Value}
    (calm : ∀ name values, Completes Quiet (call name values)) :
    (e : Expr) → ∀ {s : Session}, Binds binding s →
      evaluateWith call (e.instantiate binding) s = evaluateWith call e s
  | .number _ _, _, _ => by rw [Expr.instantiate]
  | .string _ _, _, _ => by rw [Expr.instantiate]
  | .scalar column i, s, binds => by
      rw [Expr.instantiate]
      cases bound : binding i.name with
      | none => rfl
      | some value =>
          obtain ⟨free, rfl⟩ := binds i.name value bound
          rw [evaluateWith, evaluateName_of_variable free]
          cases held : s.memory.fetch i.name with
          | number x => simp only [Value.literal, evaluateWith, Effect.get, held]; rfl
          | string x => simp only [Value.literal, evaluateWith, Effect.get, held]; rfl
  | .call _ _ arguments, _, binds => by
      rw [Expr.instantiate]
      exact bind_congr (evaluateAllWith_instantiate calm arguments binds) fun _ _ _ => rfl
  | .user _ _ arguments, _, binds => by
      rw [Expr.instantiate]
      exact bind_congr (evaluateAllWith_instantiate calm arguments binds) fun _ _ _ => rfl
  | .negate _ operand, _, binds => by
      rw [Expr.instantiate]
      exact bind_congr (evaluateWith_instantiate calm operand binds) fun _ _ _ => rfl
  | .not _ operand, _, binds => by
      rw [Expr.instantiate]
      exact bind_congr (evaluateWith_instantiate calm operand binds) fun _ _ _ => rfl
  | .binary _ _ left right, s, binds => by
      rw [Expr.instantiate]
      refine bind_congr (evaluateWith_instantiate calm left binds) fun x t done => ?_
      -- The left operand may draw random numbers, but the variables hold what they held.
      have still := binds.of_quiet ((evaluative_completes.evaluateWith calm left).of_ok done)
      exact bind_congr (evaluateWith_instantiate calm right still) fun _ _ _ => rfl

/-- Values may be put in the places of variables that hold them before a list is evaluated. -/
theorem evaluateAllWith_instantiate {call : Name → List Value → Effect Value}
    (calm : ∀ name values, Completes Quiet (call name values)) :
    (es : List Expr) → ∀ {s : Session}, Binds binding s →
      evaluateAllWith call (Expr.instantiateAll binding es) s = evaluateAllWith call es s
  | [], _, _ => by rw [Expr.instantiateAll]
  | e :: es, s, binds => by
      rw [Expr.instantiateAll]
      refine bind_congr (evaluateWith_instantiate calm e binds) fun x t done => ?_
      have still := binds.of_quiet ((evaluative_completes.evaluateWith calm e).of_ok done)
      exact bind_congr (evaluateAllWith_instantiate calm es still) fun _ _ _ => rfl

end

/-- Values may be put in the places of variables that hold them before an expression is
evaluated. -/
theorem evaluate_instantiate (e : Expr) (binds : Binds binding s) :
    evaluate (e.instantiate binding) s = evaluate e s :=
  evaluateWith_instantiate (evaluative_completes.callUser maxCallDepth) e binds

end Session

/-! ## Calls -/

/-- The last of the values that are written to a variable is what it reads as. -/
theorem Memory.fetch_putAll (names : List Name) (values : List Value) (memory : Memory)
    (other : Name) :
    (Memory.putAll names values memory).fetch other =
      ((names.zip values).reverse.lookup other).getD (memory.fetch other) := by
  fun_induction Memory.putAll names values memory with
  | case1 name names value values memory ih =>
      rw [ih, List.zip_cons_cons, List.reverse_cons, List.lookup_append, fetch_put]
      by_cases same : other = name
      · subst same
        simp
      · have differ : (other == name) = false := beq_eq_false_iff_ne.mpr same
        simp [List.lookup_cons, same, differ]
  | case2 names values memory none =>
      cases names with
      | nil => rfl
      | cons name names =>
          cases values with
          | nil => rfl
          | cons value values => exact (none name names value values rfl rfl).elim

/-- Each of the names has a last value. -/
theorem exists_lookup_of_mem {names : List Name} {values : List Value}
    (count : names.length = values.length) {name : Name} (inside : name ∈ names) :
    ∃ value, (names.zip values).reverse.lookup name = some value := by
  have keys : name ∈ (names.zip values).map Prod.fst := by
    rwa [List.map_fst_zip (Nat.le_of_eq count)]
  obtain ⟨pair, found, rfl⟩ := List.mem_map.mp keys
  rw [← Option.isSome_iff_exists, List.lookup_isSome_iff]
  exact ⟨pair, List.mem_reverse.mpr found, BEq.rfl⟩

namespace Session

open Effect

variable {s : Session} {parameters : List Name} {arguments : List Value}

/-- The end of a call, when its body has come to a result: the old values of the variables that the
parameters name are put back, and the value has to be what the name of the function stands for. -/
def leaveCall (name : Name) (parameters : List Name) (saved : List Value)
    (result : Except Fault Value) : Effect Value := do
  modify fun s => { s with callDepth := s.callDepth - 1 }
  storeAll parameters saved
  let value ← ofExcept result
  ofExcept (value.check name)
  return value

/-- A call evaluates the body of its function in the session in which the parameters have been
assigned to. -/
theorem callOnce_of_callee {name : Name} {body : Expr}
    (accepted : callee name arguments s = (.ok (parameters, body), s)) :
    callOnce evaluate name arguments s =
      leaveCall name parameters (parameters.map s.memory.fetch)
        (evaluate body (s.calling parameters arguments)).1
        (evaluate body (s.calling parameters arguments)).2 := by
  have fit : ∀ pair ∈ parameters.zip arguments, pair.2.fits pair.1 = true := by
    rcases callee_cases name arguments s with ⟨fault, refused⟩ | ⟨_, _, same, -, fit⟩
    · rw [accepted] at refused
      cases refused
    · rw [accepted] at same
      cases same
      exact fit
  have tried : attempt (evaluate body) (s.calling parameters arguments) =
      (.ok (evaluate body (s.calling parameters arguments)).1,
        (evaluate body (s.calling parameters arguments)).2) := rfl
  unfold callOnce shadowing
  rw [bind_of_ok accepted]
  dsimp only
  rw [bind_assoc, bind_of_ok (x := Effect.get _) rfl, bind_assoc, bind_of_ok (storeAll_eq fit s),
    bind_assoc, bind_of_ok (x := Effect.modify _) rfl, bind_assoc]
  refine (bind_of_ok tried).trans ?_
  unfold leaveCall
  simp only [bind_assoc]

/-- The argument that a parameter stands for: the last one that is passed for it. There is none for
a name that stands for a built-in function. -/
def argument? (parameters : List Name) (arguments : List Value) (name : Name) : Option Value :=
  if name ∈ Builtin.bareNames then none else (parameters.zip arguments).reverse.lookup name

/-- In the session in which a body starts, the parameters hold their arguments. -/
theorem binds_calling (s : Session) (parameters : List Name) (arguments : List Value) :
    Binds (argument? parameters arguments) (s.calling parameters arguments) := by
  intro name value bound
  unfold argument? at bound
  split at bound
  · cases bound
  · next free =>
      refine ⟨free, ?_⟩
      show (Memory.putAll parameters arguments s.memory).fetch name = value
      rw [Memory.fetch_putAll, bound]
      rfl

/-- In the body of a function, parameters stand for arguments. For every call that its function
accepts and that is not nested too deep:

* the body is evaluated in the session in which the parameters have been assigned to;
* wherever this evaluation comes to a parameter, it yields the last argument that this call has
  passed for it, whatever has been called before; the names of built-in functions that need no
  arguments are the exception, and call the function;
* the body yields the same with the arguments themselves in the places of the parameters. -/
theorem parameters_stand_for_arguments {room : Nat} {name : Name} {other : Ident} {a b : Address}
    {column : Span} {listed : List Ident} {body : Expr}
    (enough : maxCallDepth ≤ room + s.callDepth) (defined : s.functions[name]? = some a)
    (found : s.program.statement? a = some (b, .run (.define column other listed body)))
    (count : listed.length = arguments.length)
    (suit : checkArguments (listed.map Ident.name) arguments = .ok ())
    (shallow : s.callDepth < maxCallDepth) :
    let parameters := listed.map Ident.name
    let inner := s.calling parameters arguments
    callUser room name arguments s =
        leaveCall name parameters (parameters.map s.memory.fetch) (evaluate body inner).1
          (evaluate body inner).2 ∧
      (∀ p ∈ parameters, ∃ value, (parameters.zip arguments).reverse.lookup p = some value ∧
        ∀ t place i, i.name = p → Visits (inner, body) (t, .scalar place i) →
          (p ∉ Builtin.bareNames → evaluate (.scalar place i) t = (.ok value, t)) ∧
          ∀ f : Builtin, f.arity.1 = 0 → f.name = p →
            evaluate (.scalar place i) t = callBuiltin f [] t) ∧
      evaluate (body.instantiate (argument? parameters arguments)) inner = evaluate body inner := by
  intro parameters inner
  have binds : Binds (argument? parameters arguments) inner := binds_calling s _ _
  refine ⟨?_, fun p inside => ?_, evaluate_instantiate body binds⟩
  · have accepted := callee_of_accepted defined found count suit
    rw [if_neg (Nat.not_le.mpr shallow)] at accepted
    have same : callUser room name arguments s = callUser maxCallDepth name arguments s :=
      agrees_callUser enough (Nat.le_add_right _ _) name arguments s rfl
    rw [same, callUser_eq, callOnce_of_callee accepted]
  · have lengths : parameters.length = arguments.length := by rw [List.length_map, count]
    obtain ⟨value, passed⟩ := exists_lookup_of_mem lengths inside
    refine ⟨value, passed, ?_⟩
    rintro t place i rfl visits
    refine ⟨fun free => ?_, fun f bare named => ?_⟩
    · have bound : argument? parameters arguments i.name = some value := by
        rw [argument?, if_neg free, passed]
      obtain ⟨-, held⟩ := binds.of_quiet visits.quiet i.name value bound
      show evaluateName i.name t = _
      rw [evaluateName_of_variable free, ← held]
      rfl
    · show evaluateName i.name t = _
      rw [← named, evaluateName_of_bare bare]

/-- After three statements of a session, `X` holds seven and `FNA` is defined as a sum that ends in
its parameter `X`. A call of it comes to thirty-three, and its first part can be evaluated. -/
def shadowsParameter (s : Session) : Bool :=
  let parameters : List Name := ["X", "Y", "X"]
  let e : Expr :=
    .user .none (.plain "FNA") [.number .none 1.0, .number .none 2.0, .number .none 3.0]
  let t := (s.execute 3).2
  decide (t.memory.fetch "X" = .number 7.0) && decide (t.callDepth < maxCallDepth) &&
    decide ((evaluate e t).1.toOption = some (.number 33.0)) &&
    match t.functions["FNA"]?.bind t.program.statement? with
    | some (_, .run (.define _ _ listed (.binary _ .add left (.scalar _ i)))) =>
      decide (listed = [.plain "X", .plain "Y", .plain "X"]) && decide (i = .plain "X") &&
        (evaluate left (t.calling parameters [.number 1.0, .number 2.0, .number 3.0])).1.toBool
    | _ => false

/-- A parameter that is listed twice, while a variable of its name holds something else, and another
function has a parameter of that name, too. After the call of the other function it stands for the
last argument. -/
theorem parameters_stand_for_arguments_shadowed :
    ∃ s body t place, Reachable s ∧ s.memory.fetch "X" = .number 7.0 ∧
      Visits (s.calling ["X", "Y", "X"] [.number 1.0, .number 2.0, .number 3.0], body)
        (t, .scalar place (.plain "X")) ∧
      evaluate (.scalar place (.plain "X")) t = (.ok (.number 3.0), t) ∧
      (evaluate (.user .none (.plain "FNA") [.number .none 1.0, .number .none 2.0,
        .number .none 3.0]) s).1 = .ok (.number 33.0) := by
  let source := "10 DEF FNA(X,Y,X)=FNB(Y)*10+X\n20 DEF FNB(X)=X+1\n30 X=7"
  let parameters : List Name := ["X", "Y", "X"]
  let arguments : List Value := [.number 1.0, .number 2.0, .number 3.0]
  let e : Expr :=
    .user .none (.plain "FNA") [.number .none 1.0, .number .none 2.0, .number .none 3.0]
  obtain ⟨s, loaded, tested⟩ : ∃ s,
      Session.load source { seed := 0 } ⟨2000, 1, 1, 0, 0, 0⟩ = .ok s ∧ shadowsParameter s = true :=
    exists_ok_of_any (by decide +kernel)
  simp only [shadowsParameter, Bool.and_eq_true, decide_eq_true_eq] at tested
  obtain ⟨⟨⟨held, shallow⟩, yields⟩, shape⟩ := tested
  split at shape
  next b column other listed plus left place i whole =>
    simp only [Bool.and_eq_true, decide_eq_true_eq] at shape
    obtain ⟨⟨rfl, rfl⟩, goes⟩ := shape
    obtain ⟨a, defined, found⟩ := Option.bind_eq_some_iff.mp whole
    have suit : checkArguments parameters arguments = .ok () := by rfl
    obtain ⟨-, each, -⟩ := parameters_stand_for_arguments (Nat.le_add_right maxCallDepth _) defined
      found rfl suit shallow
    obtain ⟨value, passed, stands⟩ := each "X" List.mem_cons_self
    obtain rfl : Value.number 3.0 = value := Option.some.inj passed
    have level := callDepth_evaluate left ((s.execute 3).2.calling parameters arguments)
    rcases done : evaluate left ((s.execute 3).2.calling parameters arguments) with ⟨result, t⟩
    rw [done] at goes level
    cases result with
    | error fault => cases goes
    | ok first =>
        have visits : Visits ((s.execute 3).2.calling parameters arguments,
            .binary plus .add left (.scalar place (.plain "X")))
            (t, .scalar place (.plain "X")) := by
          refine .part ?_ level (.whole _)
          rw [recursions, recursionsAll, done]
          exact List.mem_cons_of_mem _ List.mem_cons_self
        have yielded : (evaluate e (s.execute 3).2).1 = .ok (.number 33.0) := by
          cases result : (evaluate e (s.execute 3).2).1 with
          | error fault =>
              rw [result] at yields
              cases yields
          | ok value =>
              rw [result] at yields
              rw [Option.some.inj yields]
        exact ⟨_, _, t, place, (Reachable.load loaded).execute 3, held, visits,
          (stands t place (.plain "X") rfl visits).1 (by decide), yielded⟩
  next => cases shape

/-- After the first statement of a session, `FNA` is defined as `RND`, its parameter, and neither a
call of it nor its body comes to the argument. -/
def hidesParameter (s : Session) : Bool :=
  let t := (s.execute 1).2
  decide ((evaluate (.user .none (.plain "FNA") [.number .none 5.0]) t).1.toOption ≠
      some (.number 5.0)) &&
    match t.functions["FNA"]?.bind t.program.statement? with
    | some (_, .run (.define column other listed (.scalar place i))) =>
      decide (column = ⟨0, 3⟩) && decide (other = .plain "FNA") &&
        decide (listed = [.plain "RND"]) && decide (i = .plain "RND") &&
        decide ((evaluate (.scalar place (.plain "RND"))
          (t.calling ["RND"] [.number 5.0])).1.toOption ≠ some (.number 5.0))
    | _ => false

/-- A parameter with the name of a built-in function that needs no arguments is given its argument
like any other, but in the body it does not stand for it. -/
theorem builtin_hides_parameter :
    ∃ s body place, Reachable s ∧
      (s.functions["FNA"]?.bind s.program.statement?).map Prod.snd =
        some (.run (.define ⟨0, 3⟩ (.plain "FNA") [.plain "RND"] body)) ∧
      (s.calling ["RND"] [.number 5.0]).memory.fetch "RND" = .number 5.0 ∧
      Visits (s.calling ["RND"] [.number 5.0], body)
        (s.calling ["RND"] [.number 5.0], .scalar place (.plain "RND")) ∧
      (evaluate (.scalar place (.plain "RND")) (s.calling ["RND"] [.number 5.0])).1 ≠
        .ok (.number 5.0) ∧
      (evaluate (.user .none (.plain "FNA") [.number .none 5.0]) s).1 ≠ .ok (.number 5.0) := by
  have differs_ne : ∀ {result : Except Fault Value}, result.toOption ≠ some (.number 5.0) →
      result ≠ .ok (.number 5.0) := by
    rintro result differ rfl
    exact differ rfl
  obtain ⟨s, loaded, tested⟩ : ∃ s,
      Session.load "10 DEF FNA(RND)=RND\n20 PRINT FNA(5)" { seed := 1 } ⟨2000, 1, 1, 0, 0, 0⟩ =
        .ok s ∧ hidesParameter s = true :=
    exists_ok_of_any (by decide +kernel)
  simp only [hidesParameter, Bool.and_eq_true, decide_eq_true_eq] at tested
  obtain ⟨wholeDiffers, shape⟩ := tested
  split at shape
  next b column other listed place i whole =>
    simp only [Bool.and_eq_true, decide_eq_true_eq] at shape
    obtain ⟨⟨⟨⟨rfl, rfl⟩, rfl⟩, rfl⟩, partDiffers⟩ := shape
    refine ⟨(s.execute 1).2, .scalar place (.plain "RND"), place,
      (Reachable.load loaded).execute 1, ?_, ?_, .whole _, differs_ne partDiffers,
      differs_ne wholeDiffers⟩
    · rw [whole]
      rfl
    · show (Memory.putAll ["RND"] [.number 5.0] (s.execute 1).2.memory).fetch "RND" = .number 5.0
      rw [Memory.fetch_putAll]
      rfl
  next => cases shape

end Session

end NumberedBasic
