import NumberedBasic.Proofs.OrdinaryFaults
import NumberedBasic.Proofs.Places

/-!
# Evaluating an expression changes nothing but the random numbers

A call of a function that the program has defined writes to the variables its parameters name, and
puts their old values back by assigning them again. That the old values are accepted, and that what
was read before the call is read after it, rests on one invariant: every variable holds a value of
the type its name stands for (`Memory.Fits`).

`quiet_evaluate` is the main result. The argument for one call is `quiet_shadowing`; the calls
nested in its body are covered by induction on the room left for them, and the expressions in
between by recursion over their trees.
-/

set_option autoImplicit false

namespace NumberedBasic

namespace Memory

variable {memory : Memory}

/-- Every variable holds a value of the type its name stands for. -/
def Fits (memory : Memory) : Prop :=
  ∀ name, (memory.fetch name).fits name = true

/-- What is read of a variable after one has been written. -/
theorem fetch_put (memory : Memory) (name other : Name) (value : Value) :
    (memory.put name value).fetch other = if other = name then value else memory.fetch other := by
  unfold put fetch
  rw [Std.TreeMap.getElem?_insert]
  by_cases same : other = name
  · simp [same]
  · have differ : compare name other ≠ .eq := fun h => same (Std.LawfulEqOrd.eq_of_compare h).symm
    rw [if_neg differ, if_neg same]

/-- The value that a variable has before it is assigned suits its name. -/
theorem fits_default (name : Name) : (Value.default name).fits name = true := by
  unfold Value.default
  by_cases text : name.isText = true
  · simp [text, Value.fits, Value.isString]
  · simp [text, Value.fits, Value.isString]

/-- The memory without variables has none that holds a wrong value. -/
theorem fits_empty : empty.Fits := by
  intro name
  have absent : empty.fetch name = Value.default name := by simp [empty, fetch]
  rw [absent]
  exact fits_default name

/-- Assigning a value that suits a name keeps variables to their types. -/
theorem Fits.put (h : memory.Fits) {name : Name} {value : Value}
    (fits : value.fits name = true) : (memory.put name value).Fits := by
  intro other
  rw [fetch_put]
  split
  case isTrue same =>
    rw [same]
    exact fits
  case isFalse => exact h other

/-- Writes values to variables in order. -/
def putAll : List Name → List Value → Memory → Memory
  | name :: names, value :: values, memory => putAll names values (memory.put name value)
  | _, _, memory => memory

/-- Assigning to variables changes no array. -/
theorem arrays_putAll (names : List Name) (values : List Value) (memory : Memory) :
    (putAll names values memory).arrays = memory.arrays := by
  fun_induction putAll names values memory with
  | case1 name names value values memory ih => exact ih
  | case2 => rfl

/-- Writing to variables leaves the others alone. -/
theorem fetch_putAll_of_not_mem {names : List Name} (values : List Value) (memory : Memory)
    {other : Name} (outside : other ∉ names) :
    (putAll names values memory).fetch other = memory.fetch other := by
  fun_induction putAll names values memory with
  | case1 name names value values memory ih =>
      rw [List.mem_cons, not_or] at outside
      rw [ih outside.2, fetch_put, if_neg outside.1]
  | case2 => rfl

/-- Writing to each variable the value that a function has for it. A name that is listed twice is
given the same value twice. -/
theorem fetch_putAll_map (value : Name → Value) {names : List Name} (memory : Memory)
    {other : Name} (inside : other ∈ names) :
    (putAll names (names.map value) memory).fetch other = value other := by
  induction names generalizing memory with
  | nil => cases inside
  | cons name names ih =>
      show (putAll names (names.map value) (memory.put name (value name))).fetch other = _
      by_cases later : other ∈ names
      · exact ih _ later
      · have same : other = name := (List.mem_cons.mp inside).resolve_right later
        rw [fetch_putAll_of_not_mem _ _ later, fetch_put, if_pos same, same]

/-- Assigning values that suit the names keeps variables to their types. -/
theorem Fits.putAll (h : memory.Fits) {names : List Name} {values : List Value}
    (fit : ∀ pair ∈ names.zip values, pair.2.fits pair.1 = true) :
    (Memory.putAll names values memory).Fits := by
  fun_induction Memory.putAll names values memory with
  | case1 name names value values memory ih =>
      have first := fit (name, value) List.mem_cons_self
      exact ih (h.put first) fun pair inside => fit pair (List.mem_cons_of_mem _ inside)
  | case2 => exact h

end Memory

namespace Session

open Effect

/-- What evaluation relies on in a session of a program: variables hold values of their types, and
the functions that have been defined are definitions of the program. -/
structure Ready (program : Program) (s : Session) : Prop where
  program_eq : s.program = program
  fits : s.memory.Fits
  defined : ∀ name a, s.functions[name]? = some a → program.Defines a name

/-- A session that differs from another one in nothing that a program can tell, its random numbers
apart. -/
structure Quiet (s t : Session) : Prop where
  only : Only [.dice, .memory] s t
  arrays : t.memory.arrays = s.memory.arrays
  fetch : ∀ name, t.memory.fetch name = s.memory.fetch name

instance : IsPreorder Session Quiet where
  refl s := ⟨Std.Refl.refl s, rfl, fun _ => rfl⟩
  trans _ _ _ h h' :=
    ⟨IsTrans.trans _ _ _ h.only h'.only, h'.arrays.trans h.arrays,
      fun name => (h'.fetch name).trans (h.fetch name)⟩

variable {program : Program} {s t : Session}

/-- A quiet change replaces the random numbers and the table of the variables. -/
theorem Quiet.eq_with (quiet : Quiet s t) :
    t = { s with memory := ⟨t.memory.scalars, s.memory.arrays⟩, dice := t.dice } := by
  have memory : t.memory = ⟨t.memory.scalars, s.memory.arrays⟩ := by
    rw [← quiet.arrays]
  refine Session.ext (quiet.only .program ?_) (quiet.only .config ?_) (quiet.only .clock ?_)
    (quiet.only .place ?_) memory (quiet.only .functions ?_) (quiet.only .callDepth ?_)
    (quiet.only .returns ?_) (quiet.only .loops ?_) rfl (quiet.only .nextDatum ?_)
    (quiet.only .column ?_) (quiet.only .output ?_) (quiet.only .reply ?_)
    (quiet.only .interrupted ?_) (quiet.only .outcome ?_) <;> decide

/-- A quiet change keeps what evaluation relies on. -/
theorem Ready.of_quiet (ready : Ready program s) (quiet : Quiet s t) : Ready program t := by
  have sameProgram : t.program = s.program := quiet.only .program (by decide)
  have sameFunctions : t.functions = s.functions := quiet.only .functions (by decide)
  refine ⟨sameProgram.trans ready.program_eq, fun name => ?_, fun name a found => ?_⟩
  · rw [quiet.fetch name]
    exact ready.fits name
  · rw [sameFunctions] at found
    exact ready.defined name a found

/-- Assigning a value that fits writes it. -/
theorem store_eq {name : Name} {value : Value} (fits : value.fits name = true) (s : Session) :
    store name value s = (.ok (), { s with memory := s.memory.put name value }) := by
  have stored : s.memory.store name value = .ok (s.memory.put name value) := by
    simp only [Memory.store, Value.check, fits]
    rfl
  have accepted : ofExcept (s.memory.store name value) s = (.ok (s.memory.put name value), s) := by
    rw [stored]
    rfl
  exact bind_of_ok accepted

/-- Assigning values that fit writes them all. -/
theorem storeAll_eq {names : List Name} {values : List Value}
    (fit : ∀ pair ∈ names.zip values, pair.2.fits pair.1 = true) (s : Session) :
    storeAll names values s =
      (.ok (), { s with memory := Memory.putAll names values s.memory }) := by
  induction names generalizing values s with
  | nil => rfl
  | cons name names ih =>
      cases values with
      | nil => rfl
      | cons value values =>
          have first := fit (name, value) List.mem_cons_self
          have rest := ih (fun pair inside => fit pair (List.mem_cons_of_mem _ inside))
          exact (bind_of_ok (store_eq first s)).trans (rest _)

/-- The values that variables hold fit them. -/
theorem fits_saved {memory : Memory} (h : memory.Fits) (names : List Name) :
    ∀ pair ∈ names.zip (names.map memory.fetch), pair.2.fits pair.1 = true := by
  induction names with
  | nil => simp
  | cons name names ih =>
      intro pair inside
      rcases List.mem_cons.mp inside with rfl | inside
      · exact h name
      · exact ih pair inside

/-- Putting the old values of shadowed variables back undoes a call, if its body was quiet. -/
theorem Quiet.restored {parameters : List Name} {arguments : List Value}
    (calm : Quiet
      { s with
        memory := Memory.putAll parameters arguments s.memory
        callDepth := s.callDepth + 1 } t) :
    Quiet s
      { t with
        memory := Memory.putAll parameters (parameters.map s.memory.fetch) t.memory
        callDepth := t.callDepth - 1 } := by
  refine ⟨?_, ?_, ?_⟩
  · intro part outside
    have same := calm.only part outside
    cases part with
    | callDepth =>
        have depth : t.callDepth = s.callDepth + 1 := same
        show t.callDepth - 1 = s.callDepth
        omega
    | memory | dice => exact absurd (by decide) outside
    | _ => exact same
  · rw [Memory.arrays_putAll, calm.arrays, Memory.arrays_putAll]
  · intro name
    by_cases inside : name ∈ parameters
    · exact Memory.fetch_putAll_map _ _ inside
    · rw [Memory.fetch_putAll_of_not_mem _ _ inside, calm.fetch,
        Memory.fetch_putAll_of_not_mem _ _ inside]

/-- Doing something quiet while parameters shadow variables is quiet: the old values are accepted
again, and they are what was read before. -/
theorem quiet_shadowing {parameters : List Name} {arguments : List Value} {body : Effect Value}
    (fit : ∀ pair ∈ parameters.zip arguments, pair.2.fits pair.1 = true)
    (quiet : Obeys (Ready program) Quiet (fun _ => True) body) :
    Obeys (Ready program) Quiet (fun _ => True) (shadowing parameters arguments body) := by
  refine Ensures.of_outcome fun s ready => ?_
  -- the session in which the body starts
  let inner : Session :=
    { s with
      memory := Memory.putAll parameters arguments s.memory
      callDepth := s.callDepth + 1 }
  have innerReady : Ready program inner :=
    ⟨ready.program_eq, ready.fits.putAll fit, ready.defined⟩
  obtain ⟨-, calm, settled⟩ := quiet.outcome innerReady
  rcases run : body inner with ⟨result, t⟩
  rw [run] at calm settled
  -- the session in which the old values have been put back
  let outer : Session :=
    { t with
      memory := Memory.putAll parameters (parameters.map s.memory.fetch) t.memory
      callDepth := t.callDepth - 1 }
  have whole : shadowing parameters arguments body s = (result, outer) := by
    have bound : storeAll parameters arguments s = (.ok (), _) := storeAll_eq fit s
    have unbound : storeAll parameters (parameters.map s.memory.fetch)
        { t with callDepth := t.callDepth - 1 } = (.ok (), outer) :=
      storeAll_eq (fits_saved ready.fits parameters) _
    have tried : attempt body inner = (.ok result, t) := by
      simp only [attempt, run]
    unfold shadowing
    rw [bind_of_ok (x := Effect.get _) rfl, bind_of_ok bound, bind_of_ok (x := Effect.modify _) rfl,
      bind_of_ok tried, bind_of_ok (x := Effect.modify _) rfl, bind_of_ok unbound]
    rfl
  have restored : Quiet s outer := calm.restored
  rw [whole]
  exact ⟨ready.of_quiet restored, restored, settled⟩

/-- A built-in function changes the random numbers at most. -/
theorem quiet_callBuiltin (b : Builtin) (arguments : List Value) :
    Obeys (Ready program) Quiet (fun _ => True) (callBuiltin b arguments) := by
  refine (Ensures.look _).bind fun clock _ =>
    (Ensures.look _).bind fun dice _ =>
    (Obeys.compute (b.computes_call clock dice arguments)).bind fun result _ => ?_
  refine (Ensures.modify fun s ready => ?_).seq (Ensures.pure trivial)
  have quiet : Quiet s { s with dice := result.2 } := by
    refine ⟨fun part => ?_, rfl, fun _ => rfl⟩
    cases part <;> simp
  exact ⟨ready.of_quiet quiet, quiet⟩

/-- Evaluating a name without arguments is quiet. -/
theorem quiet_evaluateName (name : Name) :
    Obeys (Ready program) Quiet (fun _ => True) (evaluateName name) := by
  unfold evaluateName
  split
  · exact Ensures.ite (fun _ => quiet_callBuiltin _ _) fun _ => Ensures.look _
  · exact Ensures.look _

/-- Evaluating a name with arguments is quiet, be it a function or an array. -/
theorem quiet_evaluateCall (name : Name) (arguments : List Value) :
    Obeys (Ready program) Quiet (fun _ => True) (evaluateCall name arguments) := by
  unfold evaluateCall
  split
  · exact quiet_callBuiltin _ arguments
  · exact (Ensures.look _).bind fun memory _ =>
      Obeys.compute (memory.computes_fetchElement name arguments)

mutual

/-- An expression is evaluated quietly if the functions it calls are. -/
theorem quiet_evaluateWith {call : Name → List Value → Effect Value}
    (quiet : ∀ name values, Obeys (Ready program) Quiet (fun _ => True) (call name values)) :
    (e : Expr) → Obeys (Ready program) Quiet (fun _ => True) (evaluateWith call e)
  | .number _ _ => Ensures.pure trivial
  | .string _ _ => Ensures.pure trivial
  | .scalar _ i => quiet_evaluateName i.name
  | .call _ i arguments =>
      (quiet_evaluateAllWith quiet arguments).bind fun values _ => quiet_evaluateCall i.name values
  | .user _ i arguments =>
      (quiet_evaluateAllWith quiet arguments).bind fun values _ => quiet i.name values
  | .negate _ operand =>
      (quiet_evaluateWith quiet operand).bind fun value _ => Obeys.compute value.computes_negate
  | .not _ operand =>
      (quiet_evaluateWith quiet operand).bind fun value _ => Obeys.compute value.computes_not
  | .binary _ op left right =>
      (quiet_evaluateWith quiet left).bind fun x _ =>
        (quiet_evaluateWith quiet right).bind fun y _ => Obeys.compute (op.computes_apply x y)

/-- Expressions are evaluated quietly, one after another. -/
theorem quiet_evaluateAllWith {call : Name → List Value → Effect Value}
    (quiet : ∀ name values, Obeys (Ready program) Quiet (fun _ => True) (call name values)) :
    (es : List Expr) → Obeys (Ready program) Quiet (fun _ => True) (evaluateAllWith call es)
  | [] => Ensures.pure trivial
  | e :: es =>
      (quiet_evaluateWith quiet e).bind fun _ _ =>
        (quiet_evaluateAllWith quiet es).bind fun _ _ => Ensures.pure trivial

end

/-- A call of a function that the program has defined is quiet, however deep calls are nested in
it and wherever one of them fails. -/
theorem quiet_callUser (room : Nat) (name : Name) (arguments : List Value) :
    Obeys (Ready program) Quiet (fun _ => True) (callUser room name arguments) := by
  induction room using Nat.strongRecOn generalizing name arguments with
  | ind room ih =>
      rw [callUser.eq_def]
      refine Ensures.bind
        (P := fun functions => ∀ name a, functions[name]? = some a → program.Defines a name)
        (Ensures.get fun s ready => ready.defined) fun functions defined => ?_
      split
      · exact Ensures.fail rfl
      · next a found =>
          obtain ⟨column, i, parameters, body, -, stands⟩ := defined name a found
          have looked := Program.statement?_of_statementAt? stands
          refine Ensures.bind (P := fun place => place = program.statement? a)
            (Ensures.get fun s ready => by rw [ready.program_eq]) fun place same => ?_
          rw [same, looked]
          dsimp only
          refine Ensures.ite (fun _ => Ensures.fail rfl) fun _ => ?_
          refine (Obeys.compute (computes_checkArguments _ arguments)).bind fun _ fit => ?_
          refine (Ensures.look _).bind fun depth _ => ?_
          refine Ensures.ite (fun _ => Ensures.fail rfl) fun _ => ?_
          split
          · exact Ensures.fail rfl
          · next room =>
              have calls := ih room (Nat.lt_succ_self room)
              refine (quiet_shadowing fit (quiet_evaluateWith calls body)).bind fun value _ => ?_
              exact (Obeys.compute (value.computes_check name)).seq (Ensures.pure trivial)

/-- Evaluating an expression is quiet. -/
theorem quiet_evaluate (e : Expr) :
    Obeys (Ready program) Quiet (fun _ => True) (evaluate e) :=
  quiet_evaluateWith (quiet_callUser maxCallDepth) e

/-- Evaluating a list of expressions is quiet. -/
theorem quiet_evaluateAll (es : List Expr) :
    Obeys (Ready program) Quiet (fun _ => True) (evaluateAll es) :=
  quiet_evaluateAllWith (quiet_callUser maxCallDepth) es

/-- Evaluating an expression that has to be a number is quiet. -/
theorem quiet_evaluateNumber (e : Expr) :
    Obeys (Ready program) Quiet (fun _ => True) (evaluateNumber e) :=
  (quiet_evaluate e).bind fun value _ => Obeys.compute value.computes_toNumber

end Session

end NumberedBasic
