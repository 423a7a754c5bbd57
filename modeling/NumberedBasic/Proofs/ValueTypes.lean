import NumberedBasic.Proofs.EvaluationRules
import NumberedBasic.Proofs.SessionInvariant

/-!
# Types of values

A value is a number or a string, and nothing in an expression has to be looked up to tell which of
the two its value will be: `Expr.isText?` reads it off the syntax. That this is right rests on the
memory: every variable and every array element holds a value of the type its name stands for
(`Memory.Typed`).

`Effect.Gives` is what is known of an effect here: it keeps an invariant of sessions, and the values
it yields have a property. `gives_evaluate` is the result about expressions, by recursion over their
trees and by induction on the room left for calls; `keepsTypes_perform` says that no statement
leaves a value of the wrong type behind. `Session.values_follow_names` puts the two together.
-/

set_option autoImplicit false

namespace NumberedBasic

/-- Every variable that has been assigned to and every element of an array holds a string if its
name stands for strings, and a number otherwise. -/
structure Memory.Typed (memory : Memory) : Prop where
  scalars : ∀ (name : Name) (value : Value), memory.scalars[name]? = some value →
    value.isString = name.isText
  elements : ∀ (name : Name) (grid : Grid), memory.arrays[name]? = some grid →
    ∀ value ∈ grid.cells, value.isString = name.isText

/-- Whether an expression is a string, as its syntax has it. A sum has the type of its operands, and
none if they are of different types. -/
def Expr.isText? : Expr → Option Bool
  | .number .. => some false
  | .string .. => some true
  | .scalar _ i => some i.name.isText
  | .call _ i _ => some (i.name.isText || i.name == "SPC")
  | .user _ i _ => some i.name.isText
  | .binary _ .add left right =>
    match left.isText?, right.isText? with
    | some a, some b => if a = b then some a else none
    | _, _ => none
  | .negate .. | .not .. | .binary .. => some false

namespace Effect

variable {α : Type}

/-- Whatever a computation yields has a property. -/
abbrev Grants (P : α → Prop) (result : Except Fault α) : Prop :=
  Settles (fun _ => True) P result

/-- A computation of which nothing is asked. -/
theorem Grants.any (result : Except Fault α) : Grants (fun _ => True) result := by
  cases result <;> trivial

/-- What is known of the values of an effect: in a session with the invariant `I` it leaves a
session that has `I` too, and if it yields a value, the value has `P`. -/
abbrev Gives (I : Session → Prop) (P : α → Prop) (x : Effect α) : Prop :=
  Ensures I Session.Anyhow (Failing I Session.Anyhow fun _ => True) P x

namespace Gives

variable {I : Session → Prop} {P : α → Prop}

/-- A change of the session that keeps the invariant. -/
theorem modify {g : Session → Session} (h : ∀ s, I s → I (g s)) :
    Gives I (fun _ => True) (modify g) :=
  Ensures.modify fun s hs => ⟨h s hs, trivial⟩

/-- A fault of which nothing is asked. -/
theorem fail {fault : Fault} : Gives I P (fail fault) :=
  Ensures.fail trivial

end Gives

end Effect

open Effect (Grants Gives)

/-! ## Computations -/

namespace Value

/-- A value that a name accepts is of its type. -/
theorem grants_check (value : Value) (name : Name) :
    Grants (fun _ => value.isString = name.isText) (value.check name) := by
  unfold check
  split
  · next fits => exact eq_of_beq fits
  · exact trivial

/-- The value of a variable before it is assigned is of the type that its name stands for. -/
theorem isString_default (name : Name) : (default name).isString = name.isText :=
  eq_of_beq (Memory.fits_default name)

/-- A negation yields a number. -/
theorem grants_negate (value : Value) : Grants (·.isString = false) value.negate := by
  cases value with
  | number x => exact rfl
  | string s => exact trivial

/-- `NOT` yields a number. -/
theorem grants_not (value : Value) : Grants (·.isString = false) value.not := by
  cases value with
  | number x => exact (Grants.any _).bind fun _ _ => rfl
  | string s => exact trivial

end Value

namespace BinaryOp

/-- Arithmetic yields numbers, if its operation does. -/
theorem grants_arithmetic {f : Float → Float → Except Fault Value}
    (h : ∀ x y, Grants (·.isString = false) (f x y)) (left right : Value) :
    Grants (·.isString = false) (arithmetic f left right) := by
  unfold arithmetic
  split
  · exact h _ _
  · exact trivial

/-- A comparison yields a number. -/
theorem grants_relation (numbers : Float → Float → Bool) (strings : String → String → Bool)
    (left right : Value) : Grants (·.isString = false) (relation numbers strings left right) := by
  unfold relation
  split
  · exact rfl
  · exact rfl
  · exact trivial

/-- An operation on machine words yields a number. -/
theorem grants_bitwise (f : Int64 → Int64 → Int64) (x y : Float) :
    Grants (·.isString = false) (bitwise f x y) :=
  (Grants.any _).bind fun _ _ => (Grants.any _).bind fun _ _ => rfl

/-- A division yields a number. -/
theorem grants_quotient (x y : Float) : Grants (·.isString = false) (quotient x y) := by
  unfold quotient
  split
  · exact trivial
  · exact rfl

/-- A sum has operands of one type, which is its own. -/
theorem grants_sum (left right : Value) :
    Grants (fun value => left.isString = value.isString ∧ right.isString = value.isString)
      (sum left right) := by
  unfold sum
  split
  · exact ⟨rfl, rfl⟩
  · exact ⟨rfl, rfl⟩
  · exact trivial

/-- All operators but the sum yield numbers. -/
theorem grants_apply {op : BinaryOp} (noSum : op ≠ .add) (left right : Value) :
    Grants (·.isString = false) (op.apply left right) := by
  cases op with
  | add => exact absurd rfl noSum
  | power | multiply | subtract =>
      apply grants_arithmetic
      intro x y
      rfl
  | divide => exact grants_arithmetic grants_quotient left right
  | equal | notEqual | less | lessEqual | greater | greaterEqual =>
      exact grants_relation _ _ left right
  | and | or => exact grants_arithmetic (grants_bitwise _) left right

end BinaryOp

namespace Builtin

/-- A function of one number yields a number. -/
theorem grants_numeric (b : Builtin) (arguments : List Value) (f : Float → Float) :
    Grants (·.isString = false) (b.numeric arguments f) :=
  (Grants.any _).bind fun _ _ => rfl

/-- A function of one number that is not defined everywhere yields a number. -/
theorem grants_numericUnless (b : Builtin) (arguments : List Value) (undefined : Float → Bool)
    (f : Float → Float) : Grants (·.isString = false) (b.numericUnless arguments undefined f) := by
  refine (Grants.any _).bind fun x _ => ?_
  split
  · exact trivial
  · exact rfl

/-- Whether a function yields strings. -/
def isText : Builtin → Bool
  | .CHR | .DATE | .LEFT | .MID | .RIGHT | .SPC | .STR | .TIME => true
  | _ => false

/-- The functions that yield strings are those with a `$`, and `SPC`. -/
theorem isText_eq (b : Builtin) : b.isText = (b.name.isText || b.name == "SPC") := by
  cases b <;> decide +kernel

/-- A built-in function yields a value of its type. -/
theorem grants_compute (clock : Clock) (b : Builtin) (arguments : List Value) :
    Grants (·.isString = b.isText) (compute clock b arguments) := by
  cases b with
  | ABS | ATN | COS | EXP | INT | SGN | SIN | TAN => exact grants_numeric _ arguments _
  | LOG | SQR => exact grants_numericUnless _ arguments _ _
  | DATE | TIME => exact rfl
  | RND | TAB => exact trivial
  | ASC | CHR =>
      refine (Grants.any _).bind fun _ _ => ?_
      split
      · exact rfl
      · exact trivial
  | LEFT | RIGHT => exact (Grants.any _).bind fun _ _ => (Grants.any _).bind fun _ _ => rfl
  | LEN | STR | VAL => exact (Grants.any _).bind fun _ _ => rfl
  | MID =>
      refine (Grants.any _).bind fun _ _ => (Grants.any _).bind fun _ _ => ?_
      split
      · exact trivial
      · split
        · exact (Grants.any _).bind fun _ _ => rfl
        · exact rfl
  | SPC =>
      refine (Grants.any _).bind fun _ _ => ?_
      split
      · exact trivial
      · exact rfl

/-- A call of a built-in function yields a value of its type. -/
theorem grants_call (clock : Clock) (dice : Dice) (b : Builtin) (arguments : List Value) :
    Grants (·.1.isString = b.isText) (b.call clock dice arguments) := by
  unfold call
  dsimp only
  split
  · exact trivial
  · split
    · next roll =>
        rw [roll]
        exact (Grants.any _).bind fun _ _ => rfl
    · exact (grants_compute clock b arguments).bind fun _ same => same

/-- A function that is found by a name has that name. -/
theorem name_of_ofName? {name : Name} {b : Builtin} (h : ofName? name = some b) :
    b.name = name := by
  have same := List.find?_some (p := fun b : Builtin => b.name == name) h
  exact eq_of_beq same

/-- A function that needs no arguments yields what its name stands for. -/
theorem isText_of_arity {b : Builtin} (h : b.arity.1 = 0) : b.isText = b.name.isText := by
  cases b <;> first | decide +kernel | cases h

end Builtin

/-! ## Memory -/

namespace Memory

variable {memory : Memory}

/-- Empty memory holds no value of a wrong type. -/
theorem typed_empty : empty.Typed := by
  constructor
  · intro name value found
    simp [empty] at found
  · intro name grid found
    simp [empty] at found

/-- A variable yields a value of the type that its name stands for. -/
theorem Typed.fetch (typed : memory.Typed) (name : Name) :
    (memory.fetch name).isString = name.isText := by
  unfold Memory.fetch
  cases found : memory.scalars[name]? with
  | none => exact Value.isString_default name
  | some value => exact typed.scalars name value found

/-- Writing a value of the right type keeps variables to their types. -/
theorem Typed.put (typed : memory.Typed) {name : Name} {value : Value}
    (fits : value.isString = name.isText) : (memory.put name value).Typed := by
  refine ⟨fun other stored found => ?_, typed.elements⟩
  unfold Memory.put at found
  rw [Std.TreeMap.getElem?_insert] at found
  split at found
  · next same =>
      obtain rfl := Std.LawfulEqOrd.eq_of_compare same
      obtain rfl := Option.some.inj found
      exact fits
  · exact typed.scalars other stored found

/-- An assignment that is not refused keeps variables to their types. -/
theorem grants_store (typed : memory.Typed) (name : Name) (value : Value) :
    Grants Typed (memory.store name value) :=
  (value.grants_check name).bind fun _ fits => typed.put fits

/-- A new array is filled with values of its type. -/
theorem grants_dimension (typed : memory.Typed) (name : Name) (bounds : List Value) :
    Grants Typed (memory.dimension name bounds) := by
  unfold dimension
  split
  · exact trivial
  refine (Grants.any _).bind fun bounds _ => ⟨typed.scalars, fun other grid found => ?_⟩
  dsimp only at found
  rw [Std.TreeMap.getElem?_insert] at found
  split at found
  · next same =>
      obtain rfl := Std.LawfulEqOrd.eq_of_compare same
      obtain rfl := Option.some.inj found
      intro value inside
      rw [(Array.mem_replicate.mp inside).2]
      exact Value.isString_default name
  · exact typed.elements other grid found

/-- An element can be assigned values of the right type only. -/
theorem grants_target (memory : Memory) (name : Name) (subscripts : List Value) (value : Value) :
    Grants (fun _ => value.isString = name.isText) (memory.target name subscripts value) :=
  (value.grants_check name).bind fun _ fits =>
    (Grants.any _).bind fun _ _ => (Grants.any _).imp fun _ _ => fits

/-- Writing a value of the right type to an element keeps arrays to their types. -/
theorem Typed.putElement (typed : memory.Typed) {name : Name} {value : Value}
    (fits : value.isString = name.isText) (offset : Nat) :
    (memory.putElement name offset value).Typed := by
  refine ⟨typed.scalars, fun other grid found => ?_⟩
  unfold Memory.putElement at found
  rw [Std.TreeMap.getElem?_modify] at found
  split at found
  · next same =>
      obtain rfl := Std.LawfulEqOrd.eq_of_compare same
      obtain ⟨old, stored, rfl⟩ := Option.map_eq_some_iff.mp found
      intro element inside
      rcases Array.mem_or_eq_of_mem_setIfInBounds inside with before | rfl
      · exact typed.elements name old stored element before
      · exact fits
  · exact typed.elements other grid found

/-- An element yields a value of the type that its name stands for. -/
theorem grants_fetchElement (typed : memory.Typed) (name : Name) (subscripts : List Value) :
    Grants (·.isString = name.isText) (memory.fetchElement name subscripts) := by
  have found : Grants (fun grid => memory.arrays[name]? = some grid) (memory.array name) := by
    unfold array
    split
    · next grid found => exact found
    · exact trivial
  refine found.bind fun grid found => (Grants.any _).bind fun offset _ => ?_
  rw [Array.getD_eq_getD_getElem?]
  cases element : grid.cells[offset]? with
  | none => exact Value.isString_default name
  | some value => exact typed.elements name grid found value (Array.mem_of_getElem? element)

end Memory

namespace Session

open Effect

variable {s : Session}

/-! ## Expressions -/

/-- The values a session holds are of the types their names stand for. -/
def Typed (s : Session) : Prop :=
  s.memory.Typed

/-- Nothing is asked of the value of an effect but that it leaves no value of a wrong type. -/
abbrev KeepsTypes {α : Type} (x : Effect α) : Prop :=
  Gives Typed (fun _ => True) x

/-- A computation does not touch memory. -/
theorem keepsTypes_ofExcept {α : Type} (result : Except Fault α) :
    KeepsTypes (Effect.ofExcept result) :=
  Ensures.ofExcept (Grants.any result)

/-- A change that is none of the memory. -/
theorem keepsTypes_modify {g : Session → Session} (same : ∀ s, (g s).memory = s.memory) :
    KeepsTypes (Effect.modify g) := by
  refine Gives.modify fun s typed => ?_
  unfold Typed
  rw [same]
  exact typed

/-- Calling a built-in function yields a value of its type. -/
theorem gives_callBuiltin (b : Builtin) (arguments : List Value) :
    Gives Typed (·.isString = b.isText) (callBuiltin b arguments) := by
  refine (Ensures.look _).bind fun clock _ => (Ensures.look _).bind fun dice _ => ?_
  refine (Ensures.ofExcept (b.grants_call clock dice arguments)).bind fun result same => ?_
  exact Ensures.seq (keepsTypes_modify fun _ => rfl) (.pure same)

/-- Fetching a variable yields a value of its type. -/
theorem gives_fetch (name : Name) :
    Gives Typed (·.isString = name.isText) (Effect.get (·.memory.fetch name)) :=
  .get fun _ typed => Memory.Typed.fetch typed name

/-- A name alone yields a value of the type that it stands for. -/
theorem gives_evaluateName (name : Name) :
    Gives Typed (·.isString = name.isText) (evaluateName name) := by
  unfold evaluateName
  split
  · next b found =>
      refine .ite (fun bare => ?_) fun _ => gives_fetch name
      rw [← Builtin.name_of_ofName? found, ← Builtin.isText_of_arity bare]
      exact gives_callBuiltin b []
  · exact gives_fetch name

/-- The name `SPC` is that of a function and never of an array. -/
theorem gives_evaluateCall (name : Name) (arguments : List Value) :
    Gives Typed (·.isString = (name.isText || name == "SPC")) (evaluateCall name arguments) := by
  unfold evaluateCall
  split
  · next b found =>
      rw [← Builtin.name_of_ofName? found, ← Builtin.isText_eq]
      exact gives_callBuiltin b arguments
  · next none =>
      have noSpace : (name == "SPC") = false := by
        refine beq_eq_false_iff_ne.mpr ?_
        rintro rfl
        revert none
        decide +kernel
      rw [noSpace, Bool.or_false]
      exact (Ensures.get fun _ typed => typed).bind fun memory typed =>
        .ofExcept (Memory.grants_fetchElement typed name arguments)

mutual

/-- The value of an expression has the type that its syntax gives it, if the values of the functions
it calls have the types that their names stand for. -/
theorem gives_evaluateWith {call : Name → List Value → Effect Value}
    (typed : ∀ name values, Gives Typed (·.isString = name.isText) (call name values)) :
    (e : Expr) → Gives Typed (fun value => e.isText? = some value.isString) (evaluateWith call e)
  | .number _ _ => .pure rfl
  | .string _ _ => .pure rfl
  | .scalar _ i => (gives_evaluateName i.name).imp fun _ same => congrArg some same.symm
  | .call _ i arguments =>
      (keepsTypes_evaluateAllWith typed arguments).bind fun values _ =>
        (gives_evaluateCall i.name values).imp fun _ same => congrArg some same.symm
  | .user _ i arguments =>
      (keepsTypes_evaluateAllWith typed arguments).bind fun values _ =>
        (typed i.name values).imp fun _ same => congrArg some same.symm
  | .negate _ operand =>
      (gives_evaluateWith typed operand).bind fun value _ =>
        (Ensures.ofExcept value.grants_negate).imp fun _ same => congrArg some same.symm
  | .not _ operand =>
      (gives_evaluateWith typed operand).bind fun value _ =>
        (Ensures.ofExcept value.grants_not).imp fun _ same => congrArg some same.symm
  | .binary column op left right => by
      refine (gives_evaluateWith typed left).bind fun x leftType =>
        (gives_evaluateWith typed right).bind fun y rightType => ?_
      by_cases isSum : op = .add
      · rw [isSum]
        refine (Ensures.ofExcept (BinaryOp.grants_sum x y)).imp fun value same => ?_
        rw [Expr.isText?, leftType, rightType, same.1, same.2]
        exact if_pos rfl
      · have number : (Expr.binary column op left right).isText? = some false := by
          unfold Expr.isText?
          split <;> simp_all
        refine (Ensures.ofExcept (BinaryOp.grants_apply isSum x y)).imp fun value same => ?_
        rw [number, same]

/-- Evaluating expressions keeps types, if the calls in them do. -/
theorem keepsTypes_evaluateAllWith {call : Name → List Value → Effect Value}
    (typed : ∀ name values, Gives Typed (·.isString = name.isText) (call name values)) :
    (es : List Expr) → KeepsTypes (evaluateAllWith call es)
  | [] => .pure trivial
  | e :: es =>
      (gives_evaluateWith typed e).bind fun _ _ =>
        (keepsTypes_evaluateAllWith typed es).bind fun _ _ => .pure trivial

end

/-- Changing memory keeps types, if the change does. -/
theorem keepsTypes_updateMemory {f : Memory → Except Fault Memory}
    (h : ∀ memory, memory.Typed → Grants Memory.Typed (f memory)) :
    KeepsTypes (updateMemory f) :=
  Ensures.bind (.get fun _ typed => typed) fun memory typed =>
    (Ensures.ofExcept (h memory typed)).bind fun _ typed => Gives.modify fun _ _ => typed

/-- Assigning to a variable keeps types. -/
theorem keepsTypes_store (name : Name) (value : Value) : KeepsTypes (store name value) :=
  keepsTypes_updateMemory fun _ typed => Memory.grants_store typed name value

/-- Binding parameters and unbinding them keeps types, if what is done in between does. -/
theorem keepsTypes_shadowing {body : Effect Value} (h : KeepsTypes body) (parameters : List Name)
    (arguments : List Value) : KeepsTypes (shadowing parameters arguments body) := by
  refine (Ensures.look _).bind fun saved _ => ?_
  refine (ensures_storeAll keepsTypes_store parameters arguments).seq ?_
  refine Ensures.seq (keepsTypes_modify fun _ => rfl) (h.attempt.bind fun result _ => ?_)
  refine Ensures.seq (keepsTypes_modify fun _ => rfl) ?_
  exact (ensures_storeAll keepsTypes_store parameters saved).seq (keepsTypes_ofExcept result)

/-- The value of a call is checked against the name of the function. -/
theorem gives_callUser (room : Nat) (name : Name) (arguments : List Value) :
    Gives Typed (·.isString = name.isText) (callUser room name arguments) := by
  induction room using Nat.strongRecOn generalizing name arguments with
  | ind room ih =>
      rw [callUser.eq_def]
      refine (Ensures.look _).bind fun functions _ => ?_
      split
      · exact Gives.fail
      refine (Ensures.look _).bind fun place _ => ?_
      split
      · next parameters body =>
          refine .ite (fun _ => Gives.fail) fun _ => (keepsTypes_ofExcept _).bind fun _ _ => ?_
          refine (Ensures.look _).bind fun depth _ => .ite (fun _ => Gives.fail) fun _ => ?_
          split
          · exact Gives.fail
          · next room =>
              have inner : KeepsTypes (evaluateWith (callUser room) body) :=
                (gives_evaluateWith (ih room (Nat.lt_succ_self room)) body).imp fun _ _ => trivial
              exact (keepsTypes_shadowing inner _ arguments).bind fun value _ =>
                (Ensures.ofExcept (value.grants_check name)).bind fun _ same => .pure same
      · exact Gives.fail

/-- The value of an expression has the type that its syntax gives it. -/
theorem gives_evaluate (e : Expr) :
    Gives Typed (fun value => e.isText? = some value.isString) (evaluate e) :=
  gives_evaluateWith (gives_callUser maxCallDepth) e

/-- Evaluating an expression keeps types. -/
theorem keepsTypes_evaluate (e : Expr) : KeepsTypes (evaluate e) :=
  (gives_evaluate e).imp fun _ _ => trivial

/-- Evaluating expressions keeps types. -/
theorem keepsTypes_evaluateAll (es : List Expr) : KeepsTypes (evaluateAll es) :=
  keepsTypes_evaluateAllWith (gives_callUser maxCallDepth) es

/-- Evaluating a number keeps types. -/
theorem keepsTypes_evaluateNumber (e : Expr) : KeepsTypes (evaluateNumber e) :=
  (keepsTypes_evaluate e).bind fun _ _ => keepsTypes_ofExcept _

/-! ## Statements -/

/-- Assigning to a target keeps types. -/
theorem keepsTypes_assign (target : Target) (value : Value) :
    KeepsTypes (assign target value) := by
  cases target with
  | scalar column i => exact keepsTypes_store i.name value
  | element e =>
      refine (keepsTypes_evaluateAll e.subscripts).bind fun subscripts _ => ?_
      refine (Ensures.look _).bind fun memory _ => ?_
      refine (Ensures.ofExcept (memory.grants_target e.name subscripts value)).bind
        fun offset fits => ?_
      exact Gives.modify fun s typed => Memory.Typed.putElement typed fits offset

/-- Assigning to targets keeps types. -/
theorem keepsTypes_assignAll (targets : List Target) (values : List Value) :
    KeepsTypes (assignAll targets values) := by
  fun_induction assignAll targets values with
  | case1 target targets value values ih => exact (keepsTypes_assign target value).seq ih
  | case2 => exact .pure trivial

/-- A `DIM` keeps types. -/
theorem keepsTypes_dimension (arrays : List Element) : KeepsTypes (dimension arrays) := by
  induction arrays with
  | nil => exact .pure trivial
  | cons e rest ih =>
      refine (keepsTypes_evaluateAll e.subscripts).bind fun bounds _ => ?_
      have declared : KeepsTypes (updateMemory (·.dimension e.name bounds)) :=
        keepsTypes_updateMemory fun _ typed => Memory.grants_dimension typed e.name bounds
      exact declared.seq ih

/-- Looking for a line keeps types. -/
theorem keepsTypes_findLine (n : LineNumber) : KeepsTypes (findLine n) := by
  refine (Ensures.look _).bind fun program _ => ?_
  split
  · exact .pure trivial
  · exact Gives.fail

/-- A `GOTO` keeps types. -/
theorem keepsTypes_goto (n : LineNumber) : KeepsTypes (goto n) :=
  (keepsTypes_findLine n).bind fun _ _ => .pure trivial

/-- A `GOSUB` keeps types. -/
theorem keepsTypes_gosub (here : Address) (n : LineNumber) : KeepsTypes (gosub here n) := by
  refine (keepsTypes_findLine n).bind fun target _ => (Ensures.look _).bind fun returns _ => ?_
  refine (keepsTypes_ofExcept _).bind fun returns _ => ?_
  exact Ensures.seq (keepsTypes_modify fun _ => rfl) (.pure trivial)

/-- A `RETURN` keeps types. -/
theorem keepsTypes_returnBack : KeepsTypes returnBack := by
  refine (Ensures.look _).bind fun returns _ => ?_
  split
  · exact Ensures.seq (keepsTypes_modify fun _ => rfl) (.pure trivial)
  · exact Gives.fail

/-- Selecting a line keeps types. -/
theorem keepsTypes_select (selector : Expr) (lines : List LineNumber) :
    KeepsTypes (select selector lines) := by
  refine (keepsTypes_evaluateNumber selector).bind fun x _ => ?_
  exact .ite (fun _ => .pure trivial) fun _ => Gives.fail

/-- Passing a loop by keeps types. -/
theorem keepsTypes_skipLoop (here : Address) (name : Name) : KeepsTypes (skipLoop here name) := by
  refine (Ensures.look _).bind fun program _ => ?_
  split
  · exact .pure trivial
  · exact Gives.fail

/-- Evaluating the step of a loop keeps types. -/
theorem keepsTypes_loopStep (step : Option Expr) : KeepsTypes (loopStep step) := by
  cases step with
  | some e => exact keepsTypes_evaluateNumber e
  | none => exact .pure trivial

/-- A `FOR` keeps types. -/
theorem keepsTypes_enterLoop (here : Address) (name : Name) (first last : Expr)
    (step : Option Expr) : KeepsTypes (enterLoop here name first last step) := by
  refine (keepsTypes_evaluate first).bind fun value _ => (keepsTypes_store name value).seq ?_
  refine (keepsTypes_ofExcept _).bind fun x _ => ?_
  refine (keepsTypes_evaluateNumber last).bind fun limit _ => ?_
  refine (keepsTypes_loopStep step).bind fun step _ => .ite (fun _ => Gives.fail) fun _ => ?_
  refine Ensures.seq (keepsTypes_modify fun _ => rfl) ?_
  refine .ite (fun _ => keepsTypes_skipLoop here name) fun _ => ?_
  refine (Ensures.look _).bind fun loops _ => (keepsTypes_ofExcept _).bind fun loops _ => ?_
  exact Ensures.seq (keepsTypes_modify fun _ => rfl) (.pure trivial)

/-- Moving a loop variable on keeps types. -/
theorem keepsTypes_advanceLoop (loop : Loop) : KeepsTypes (advanceLoop loop) := by
  refine (Ensures.look _).bind fun memory _ => (keepsTypes_ofExcept _).bind fun x _ => ?_
  refine (keepsTypes_store loop.name _).seq (.ite (fun _ => .pure trivial) fun _ => ?_)
  exact Ensures.seq (keepsTypes_modify fun _ => rfl) (.pure trivial)

/-- A `NEXT` keeps types. -/
theorem keepsTypes_continueLoop (name : Option Name) : KeepsTypes (continueLoop name) := by
  refine (Ensures.look _).bind fun loops _ => ?_
  split
  · exact Gives.fail
  refine Ensures.seq (keepsTypes_modify fun _ => rfl) ((Ensures.look _).bind fun loops _ => ?_)
  split
  · exact Gives.fail
  · exact keepsTypes_advanceLoop _

/-- Writing keeps types. -/
theorem keepsTypes_write (text : String) : KeepsTypes (write text) :=
  keepsTypes_modify fun _ => rfl

/-- A `TAB` keeps types. -/
theorem keepsTypes_tabTo (x : Float) : KeepsTypes (tabTo x) := by
  refine .ite (fun _ => (Ensures.look _).bind fun column _ => ?_) fun _ => Gives.fail
  refine .ite (fun _ => (keepsTypes_write _).seq ?_) fun _ => ?_
  · exact (Ensures.look _).bind fun _ _ => keepsTypes_write _
  · exact (Ensures.look _).bind fun _ _ => keepsTypes_write _

/-- Printing an item keeps types. -/
theorem keepsTypes_printItem (item : PrintItem) : KeepsTypes (printItem item) := by
  cases item with
  | comma column =>
      exact (Ensures.look _).bind fun _ _ => (Ensures.look _).bind fun _ _ => keepsTypes_write _
  | semicolon column => exact .pure trivial
  | value e =>
      unfold printItem
      dsimp only
      split
      · exact (keepsTypes_evaluateNumber _).bind fun x _ => keepsTypes_tabTo x
      · exact (keepsTypes_evaluate e).bind fun value _ => keepsTypes_write value.text

/-- A `PRINT` keeps types. -/
theorem keepsTypes_print (items : List PrintItem) : KeepsTypes (print items) := by
  have all (newline : Bool) : KeepsTypes (printItems newline items) := by
    induction items generalizing newline with
    | nil => exact .pure trivial
    | cons item items ih => exact (keepsTypes_printItem item).seq (ih _)
  exact (all true).bind fun _ _ => .ite (fun _ => keepsTypes_write _) fun _ => .pure trivial

/-- Using a reply keeps types. -/
theorem keepsTypes_useReply (here : Address) (targets : List Target) (reply : String) :
    KeepsTypes (useReply here targets reply) := by
  unfold useReply
  dsimp only
  split
  · refine (keepsTypes_assignAll targets _).seq ?_
    exact .ite (fun _ => (keepsTypes_write _).seq (.pure trivial)) fun _ => .pure trivial
  · refine (Ensures.look _).bind fun config _ => ?_
    split
    · exact (keepsTypes_write _).seq (.pure trivial)
    · exact Gives.fail

/-- An `INPUT` keeps types. -/
theorem keepsTypes_input (here : Address) (prompt : String) (targets : List Target) :
    KeepsTypes (input here prompt targets) := by
  have taken : KeepsTypes takeReply :=
    (Ensures.look _).bind fun reply _ =>
      .ite (fun _ => Ensures.seq (keepsTypes_modify fun _ => rfl) (.pure trivial))
        fun _ => .pure trivial
  refine taken.bind fun reply _ => ?_
  split
  · exact .pure trivial
  · exact keepsTypes_useReply here targets _

/-- Taking a data item keeps types. -/
theorem keepsTypes_takeDatum : KeepsTypes takeDatum := by
  refine (Ensures.look _).bind fun datum _ => ?_
  split
  · exact Gives.fail
  · exact Ensures.seq (keepsTypes_modify fun _ => rfl) (.pure trivial)

/-- A `READ` keeps types. -/
theorem keepsTypes_read (targets : List Target) : KeepsTypes (read targets) := by
  induction targets with
  | nil => exact .pure trivial
  | cons target targets ih =>
      exact keepsTypes_takeDatum.bind fun datum _ => (keepsTypes_ofExcept _).bind fun value _ =>
        (keepsTypes_assign target value).seq ih

/-- A `RESTORE` keeps types. -/
theorem keepsTypes_restore (line : Option LineNumber) : KeepsTypes (restore line) := by
  cases line with
  | none => exact keepsTypes_modify fun _ => rfl
  | some n => exact (keepsTypes_findLine n).bind fun _ _ => keepsTypes_modify fun _ => rfl

/-- What a command keeps it keeps as a statement as well. -/
theorem keepsTypes_andNext {effect : Effect Unit} (h : KeepsTypes effect) :
    KeepsTypes (andNext effect) :=
  h.seq (.pure trivial)

/-- No command leaves a value of a wrong type. -/
theorem keepsTypes_performCommand (here : Address) (command : Command) :
    KeepsTypes (performCommand here command) := by
  cases command with
  | clear column => exact keepsTypes_andNext (Gives.modify fun _ _ => Memory.typed_empty)
  | data | remark | finish | stop => exact .pure trivial
  | define => exact keepsTypes_andNext (keepsTypes_modify fun _ => rfl)
  | dimension column arrays => exact keepsTypes_andNext (keepsTypes_dimension arrays)
  | loop column i first last step => exact keepsTypes_enterLoop here i.name first last step
  | gosub column n => exact keepsTypes_gosub here n
  | goto column n => exact keepsTypes_goto n
  | input column prompt targets => exact keepsTypes_input here prompt targets
  | assign column target value =>
      exact (keepsTypes_evaluate value).bind fun x _ =>
        (keepsTypes_assign target x).seq (.pure trivial)
  | next column i => exact keepsTypes_continueLoop (i.map Ident.name)
  | onGoto column selector lines =>
      refine (keepsTypes_select selector lines).bind fun chosen _ => ?_
      cases chosen with
      | some n => exact keepsTypes_goto n
      | none => exact .pure trivial
  | onGosub column selector lines =>
      refine (keepsTypes_select selector lines).bind fun chosen _ => ?_
      cases chosen with
      | some n => exact keepsTypes_gosub here n
      | none => exact .pure trivial
  | print column items => exact keepsTypes_andNext (keepsTypes_print items)
  | read column targets => exact keepsTypes_andNext (keepsTypes_read targets)
  | restore column line => exact keepsTypes_andNext (keepsTypes_restore line)
  | returnBack column => exact keepsTypes_returnBack

/-- Every statement keeps types. -/
theorem keepsTypes_perform (here : Address) (statement : Statement) :
    KeepsTypes (perform here statement) := by
  cases statement with
  | run command => exact keepsTypes_performCommand here command
  | branch column predicate target =>
      exact (keepsTypes_evaluate predicate).bind fun value _ =>
        .ite (fun _ => .pure trivial) fun _ => .pure trivial
  | skip column target => exact .pure trivial

/-- One cycle keeps types. -/
theorem keepsTypes_step : KeepsTypes step := by
  refine (Ensures.look _).bind fun found _ => ?_
  split
  · exact .pure trivial
  · exact Ensures.seq (keepsTypes_modify fun _ => rfl) (keepsTypes_perform _ _)

/-! ## Runs -/

/-- One statement of a run leaves no value of a wrong type. -/
theorem Typed.turn (typed : s.Typed) : s.turn.2.Typed := by
  unfold Session.turn
  split
  · have same : ({ s with interrupted := false }.stop (.broken s.line?)).2.memory = s.memory :=
      only_stop _ _ .memory (by decide)
    unfold Typed
    rw [same]
    exact typed
  · have same : (follow (step s).1 (step s).2).2.memory = (step s).2.memory :=
      only_follow _ _ .memory (by decide)
    show (follow (step s).1 (step s).2).2.memory.Typed
    rw [same]
    exact (keepsTypes_step.outcome typed).1

/-- In every session that can be reached, values are of the types that their names stand for. -/
theorem Reachable.typed (h : Reachable s) : s.Typed := by
  refine h.invariant ?_ ?_ ?_
  · intro source program config clock _
    exact Memory.typed_empty
  · intro program config s _ _ typed
    exact typed.turn
  · intro s t only typed
    have same : t.memory = s.memory := only .memory (by decide)
    unfold Typed
    rw [same]
    exact typed

/-- In every session that a host can bring about, all variables and array elements hold values of
the types their names stand for. Whenever they do, also in the middle of a statement or of a call,
the value of an expression has the type that its syntax gives it, and an expression to which the
syntax gives none has no value. -/
theorem values_follow_names (reachable : Reachable s) :
    s.memory.Typed ∧
      ∀ (t : Session) (e : Expr) (value : Value), t.memory.Typed →
        (evaluate e t).1 = .ok value → e.isText? = some value.isString := by
  refine ⟨reachable.typed, fun t e value typed yields => ?_⟩
  have granted := ((gives_evaluate e).outcome typed).2.2
  rw [yields] at granted
  exact granted

/-- A function that pads an element of an array with blanks yields a string, as its name says. -/
theorem values_follow_names_padded :
    let e : Expr := .user .none (.text "FNP$") [.number .none 2.0]
    ∃ s value, Reachable s ∧ s.memory.Typed ∧ s.memory.arrays.contains "A$" ∧
      (evaluate e s).1 = .ok value ∧ value = .string "  X" ∧ e.isText? = some value.isString := by
  intro e
  let test (s : Session) : Bool :=
    let t := (s.execute 9).2
    t.memory.arrays.contains "A$" &&
      match (evaluate e t).1 with
      | .ok value => decide (value = .string "  X")
      | .error _ => false
  obtain ⟨s, loaded, tested⟩ : ∃ s,
      Session.load "10 DIM A$(2)\n20 A$(1)=\"X\"\n30 DEF FNP$(N)=SPC(N)+A$(1)" { seed := 0 }
        ⟨2000, 1, 1, 0, 0, 0⟩ = .ok s ∧ test s = true :=
    exists_ok_of_any (by decide +kernel)
  simp only [test, Bool.and_eq_true] at tested
  obtain ⟨declared, evaluated⟩ := tested
  have reachable : Reachable (s.execute 9).2 := (Reachable.load loaded).execute 9
  obtain ⟨typed, follows⟩ := values_follow_names reachable
  split at evaluated
  next value yields =>
    exact ⟨_, value, reachable, typed, declared, yields, of_decide_eq_true evaluated,
      follows _ e value typed yields⟩
  next => cases evaluated

end Session

end NumberedBasic
