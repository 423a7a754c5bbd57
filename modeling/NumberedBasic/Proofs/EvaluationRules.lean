import NumberedBasic.Proofs.OrdinaryFaults

/-!
# A rule for evaluations

Much of what holds of every evaluation holds because it holds of the steps that evaluations are made
of and is kept when steps are put together. `Evaluative` says what this takes of a property of
effects, and `Evaluative.evaluate` concludes that every evaluation has the property, by induction on
expressions and on the depth of calls. The first uses of it are to say with which faults evaluations
fail (`evaluative_failsIn`), and assignments (`failsIn_assign`), and what evaluations change in a
session (`evaluative_touches`).
-/

set_option autoImplicit false

namespace NumberedBasic

open Effect (Settles)

/-- Whether a fault with this code can come of any evaluation: a function that is called need not
have been defined. -/
def Code.isEvaluated (code : Code) : Bool :=
  code.isComputed || code == .undefinedUserFunction || code == .internalError

/-- A fault that can come of an evaluation. That memory has run out is only said of calls that are
nested too deep. -/
def Fault.Evaluated (fault : Fault) : Prop :=
  fault.code.isEvaluated = true ∨ fault = Session.nestingFault

/-- The faults of computations come of evaluations. -/
theorem Fault.Computed.evaluated {fault : Fault} (h : fault.Computed) : fault.Evaluated := by
  refine .inl ?_
  rw [Code.isEvaluated, h.isComputed]
  rfl

/-- A computation fails as an evaluation may. -/
theorem Computes.evaluated {α : Type} {P : α → Prop} {result : Except Fault α}
    (h : Computes P result) : Settles Fault.Evaluated (fun _ => True) result :=
  (h.imp fun _ _ => trivial).mono fun _ computed => computed.evaluated

namespace Session

open Effect

/-- A property that the steps of an evaluation have, and that is kept when effects are put
together. -/
structure Evaluative (C : {α : Type} → Effect α → Prop) : Prop where
  get : ∀ {α : Type} (look : Session → α), C (Effect.get look)
  result : ∀ {α : Type} {result : Except Fault α},
    Settles Fault.Evaluated (fun _ => True) result → C (ofExcept result)
  roll : ∀ dice, C (modify fun s => { s with dice })
  bind : ∀ {α β : Type} {x : Effect α} {f : α → Effect β}, C x → (∀ a, C (f a)) → C (x >>= f)
  shadowing : ∀ parameters arguments {body : Effect Value}, C body →
    C (shadowing parameters arguments body)

namespace Evaluative

variable {C : {α : Type} → Effect α → Prop} {α : Type}

/-- Yielding a value has the property. -/
theorem pure (rule : Evaluative C) (a : α) : C (Pure.pure a) := by
  show C (ofExcept (.ok a))
  exact rule.result trivial

/-- Failing with a fault of evaluations has the property. -/
theorem fail (rule : Evaluative C) {fault : Fault} (h : fault.Evaluated) :
    C (Effect.fail fault : Effect α) := by
  show C (ofExcept (.error fault))
  exact rule.result h

/-- Yielding what has been computed has the property. -/
theorem compute (rule : Evaluative C) {P : α → Prop} {result : Except Fault α}
    (h : Computes P result) : C (ofExcept result) :=
  rule.result h.evaluated

/-- Calling a built-in function has the property. -/
theorem callBuiltin (rule : Evaluative C) (b : Builtin) (arguments : List Value) :
    C (callBuiltin b arguments) := by
  refine rule.bind (rule.get _) fun clock => rule.bind (rule.get _) fun dice => ?_
  refine rule.bind (rule.compute (b.computes_call clock dice arguments)) fun result => ?_
  exact rule.bind (rule.roll result.2) fun _ => rule.pure result.1

/-- Evaluating a name without arguments has the property. -/
theorem evaluateName (rule : Evaluative C) (name : Name) : C (evaluateName name) := by
  unfold Session.evaluateName
  split
  · split
    · exact rule.callBuiltin _ _
    · exact rule.get _
  · exact rule.get _

/-- Evaluating a name with arguments has the property, be it a function or an array. -/
theorem evaluateCall (rule : Evaluative C) (name : Name) (arguments : List Value) :
    C (evaluateCall name arguments) := by
  unfold Session.evaluateCall
  split
  · exact rule.callBuiltin _ arguments
  · exact rule.bind (rule.get _) fun memory =>
      rule.compute (memory.computes_fetchElement name arguments)

mutual

/-- An evaluation has the property if the functions it calls have it. -/
theorem evaluateWith (rule : Evaluative C) {call : Name → List Value → Effect Value}
    (calls : ∀ name values, C (call name values)) : (e : Expr) → C (evaluateWith call e)
  | .number _ x => rule.pure (Value.number x)
  | .string _ s => rule.pure (Value.string s)
  | .scalar _ i => rule.evaluateName i.name
  | .call _ i arguments =>
      rule.bind (evaluateAllWith rule calls arguments) fun values => rule.evaluateCall i.name values
  | .user _ i arguments =>
      rule.bind (evaluateAllWith rule calls arguments) fun values => calls i.name values
  | .negate _ operand =>
      rule.bind (evaluateWith rule calls operand) fun value => rule.compute value.computes_negate
  | .not _ operand =>
      rule.bind (evaluateWith rule calls operand) fun value => rule.compute value.computes_not
  | .binary _ op left right =>
      rule.bind (evaluateWith rule calls left) fun x =>
        rule.bind (evaluateWith rule calls right) fun y => rule.compute (op.computes_apply x y)

/-- Evaluating a list has the property, if evaluating the calls in it has. -/
theorem evaluateAllWith (rule : Evaluative C) {call : Name → List Value → Effect Value}
    (calls : ∀ name values, C (call name values)) : (es : List Expr) → C (evaluateAllWith call es)
  | [] => rule.pure []
  | e :: es =>
      rule.bind (evaluateWith rule calls e) fun value =>
        rule.bind (evaluateAllWith rule calls es) fun values => rule.pure (value :: values)

end

/-- A call has the property, however deep calls are nested in it. -/
theorem callUser (rule : Evaluative C) (room : Nat) (name : Name) (arguments : List Value) :
    C (callUser room name arguments) := by
  induction room using Nat.strongRecOn generalizing name arguments with
  | ind room ih =>
      rw [callUser.eq_def]
      refine rule.bind (rule.get _) fun functions => ?_
      split
      · exact rule.fail (.inl rfl)
      · refine rule.bind (rule.get _) fun found => ?_
        split
        · next parameters body =>
            split
            · exact rule.fail (.inl rfl)
            · refine rule.bind (rule.compute (computes_checkArguments _ arguments))
                fun _ => rule.bind (rule.get _) fun depth => ?_
              split
              · exact rule.fail (.inr rfl)
              · split
                · exact rule.fail (.inr rfl)
                · next room =>
                    have calls := ih room (Nat.lt_succ_self room)
                    refine rule.bind (rule.shadowing _ arguments
                      (rule.evaluateWith calls body)) fun value => ?_
                    exact rule.bind (rule.compute (value.computes_check name)) fun _ =>
                      rule.pure value
        · exact rule.fail (.inl rfl)

/-- Every evaluation has the property. -/
theorem evaluate (rule : Evaluative C) (e : Expr) : C (evaluate e) :=
  rule.evaluateWith (rule.callUser maxCallDepth) e

/-- Evaluating a list has the property. -/
theorem evaluateAll (rule : Evaluative C) (es : List Expr) : C (evaluateAll es) :=
  rule.evaluateAllWith (rule.callUser maxCallDepth) es

end Evaluative

/-! ## The faults of evaluations -/

end Session

namespace Effect

variable {α : Type}

/-- An effect fails with certain faults only. -/
abbrev FailsIn (F : Fault → Prop) (x : Effect α) : Prop :=
  Ensures (fun _ => True) Session.Anyhow (Failing (fun _ => True) Session.Anyhow F)
    (fun _ => True) x

namespace FailsIn

variable {F : Fault → Prop} {x : Effect α}

/-- The faults that come up are among those. -/
theorem of_error (h : FailsIn F x) {s t : Session} {fault : Fault}
    (failed : x s = (.error fault, t)) : F fault :=
  ((h s trivial).2 fault t failed).2.2

/-- A change of the session does not fail. -/
theorem modify (g : Session → Session) : FailsIn F (modify g) :=
  Ensures.modify fun _ _ => ⟨trivial, trivial⟩

end FailsIn

/-- An effect changes some parts of a session at most, in every session and whether it fails or
not. -/
abbrev Touches (parts : List Session.Part) (x : Effect α) : Prop :=
  Ensures (fun _ => True) (Session.Only parts)
    (Failing (fun _ => True) (Session.Only parts) fun _ => True) (fun _ => True) x

namespace Touches

variable {parts : List Session.Part} {x : Effect α}

/-- The session that is left differs in those parts at most. -/
theorem only (h : Touches parts x) (s : Session) : Session.Only parts s (x s).2 :=
  (h.outcome trivial).2.1

/-- A result that does not depend on the session. -/
theorem ofExcept (result : Except Fault α) : Touches parts (ofExcept result) :=
  Ensures.ofExcept (by cases result <;> trivial)

end Touches

end Effect

namespace Session

open Effect

/-- Assigning to a variable fails as evaluating does. -/
theorem failsIn_store (name : Name) (value : Value) :
    FailsIn Fault.Evaluated (store name value) := by
  refine (Ensures.look _).bind fun memory _ => ?_
  exact (Ensures.ofExcept (memory.computes_store name value).evaluated).bind fun _ _ =>
    FailsIn.modify _

/-- Assigning to variables in order ensures what assigning to one of them does. -/
theorem ensures_storeAll {I : Session → Prop} {R : Session → Session → Prop}
    [IsPreorder Session R] {E : Session → Fault → Session → Prop} [Absorbs R E]
    (one : ∀ name value, Ensures I R E (fun _ => True) (store name value)) (names : List Name)
    (values : List Value) : Ensures I R E (fun _ => True) (storeAll names values) := by
  fun_induction storeAll names values with
  | case1 name names value values ih => exact (one name value).seq ih
  | case2 => exact Ensures.pure trivial

/-- Evaluations fail with the faults that can come of one. -/
theorem evaluative_failsIn : Evaluative (FailsIn Fault.Evaluated) where
  get _ := Ensures.look _
  result := Ensures.ofExcept
  roll _ := FailsIn.modify _
  bind first next := first.bind fun a _ => next a
  shadowing parameters arguments body fails := by
    refine (Ensures.look _).bind fun saved _ => ?_
    refine (ensures_storeAll failsIn_store parameters arguments).seq ?_
    refine (FailsIn.modify _).seq (fails.attempt.bind fun result settled => ?_)
    exact (FailsIn.modify _).seq ((ensures_storeAll failsIn_store parameters saved).seq
      (Ensures.ofExcept settled))

/-- Assigning fails as evaluating does: the subscripts of an element are evaluated. -/
theorem failsIn_assign (target : Target) (value : Value) :
    FailsIn Fault.Evaluated (assign target value) := by
  cases target with
  | scalar column i => exact failsIn_store i.name value
  | element e =>
      refine (evaluative_failsIn.evaluateAll e.subscripts).bind fun subscripts _ => ?_
      refine (Ensures.look _).bind fun memory _ => ?_
      exact (Ensures.ofExcept (memory.computes_target e.name subscripts value).evaluated).bind
        fun _ _ => FailsIn.modify _

/-! ## The parts that evaluations change -/

/-- Assigning to variables changes the memory at most. -/
theorem touches_storeAll (names : List Name) (values : List Value) :
    Touches [.memory] (storeAll names values) := by
  refine ensures_storeAll (fun name value => ?_) names values
  refine (Ensures.look _).bind fun memory _ => (Touches.ofExcept _).bind fun memory _ => ?_
  refine Ensures.modify fun s _ => ⟨trivial, fun part => ?_⟩
  cases part <;> simp

/-- A call changes no more than its body. The depth of calls goes up before the body and down again
after it, however the body ends. -/
theorem touches_shadowing {body : Effect Value} (h : Touches [.dice, .memory] body)
    (parameters : List Name) (arguments : List Value) :
    Touches [.dice, .memory] (shadowing parameters arguments body) := by
  refine (Ensures.look _).bind fun saved _ =>
    ((touches_storeAll parameters arguments).widen (by decide)).seq ?_
  refine Ensures.of_outcome fun s _ => ?_
  rcases run : body { s with callDepth := s.callDepth + 1 } with ⟨result, t⟩
  have inner := h.only { s with callDepth := s.callDepth + 1 }
  rw [run] at inner
  have outer : Only [.dice, .memory] s { t with callDepth := t.callDepth - 1 } := by
    intro part outside
    have same := inner part outside
    cases part with
    | callDepth =>
        have depth : t.callDepth = s.callDepth + 1 := same
        show t.callDepth - 1 = s.callDepth
        omega
    | _ => exact same
  have restores : Touches [.dice, .memory]
      (storeAll parameters saved >>= fun _ => Effect.ofExcept result) :=
    ((touches_storeAll parameters saved).widen (by decide)).seq (Touches.ofExcept result)
  have tried : attempt body { s with callDepth := s.callDepth + 1 } = (.ok result, t) := by
    simp only [attempt, run]
  rw [bind_of_ok (x := Effect.modify _) rfl, bind_of_ok tried,
    bind_of_ok (x := Effect.modify _) rfl]
  obtain ⟨-, moved, settled⟩ :=
    restores.outcome (s := { t with callDepth := t.callDepth - 1 }) trivial
  exact ⟨trivial, IsTrans.trans _ _ _ outer moved, settled⟩

/-- Evaluations change variables and random numbers at most, whatever session they start in. -/
theorem evaluative_touches : Evaluative (Touches [.dice, .memory]) where
  get _ := Ensures.look _
  result _ := Touches.ofExcept _
  roll dice := by
    refine Ensures.modify fun s _ => ⟨trivial, fun part => ?_⟩
    cases part <;> simp
  bind first next := first.bind fun a _ => next a
  shadowing parameters arguments _ touches := touches_shadowing touches parameters arguments

end Session

end NumberedBasic
