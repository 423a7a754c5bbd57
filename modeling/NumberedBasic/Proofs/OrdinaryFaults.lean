import NumberedBasic.Proofs.Footprint
import NumberedBasic.Session.Perform

/-!
# The faults of computations

Everything that is computed from values alone fails with ordinary faults: types that do not fit,
numbers outside their range, arrays and arguments that are not there. The faults of the reader and
the internal one do not occur, and neither do those that say that the program lacks something or
that memory has run out. Each lemma says so of one computation; `Builtin.computes_call` and
`BinaryOp.computes_apply` are about all built-in functions and all operators. Only declaring an
array and pushing onto a stack may find that there is no room (`Memory.settles_dimension`,
`BoundedStack.settles_push`).
-/

set_option autoImplicit false

namespace NumberedBasic

open Effect (Settles)

namespace Code

/-- Whether a fault with this code can come of a computation. The other ordinary ones say that the
program lacks a line, a function, a loop, a call or a datum, or the session memory. -/
def isComputed : Code → Bool
  | .illegalFunctionCall | .overflow | .subscriptOutOfRange | .redimensionedArray
  | .divisionByZero | .typeMismatch | .inputPastEnd | .undimensionedArray => true
  | _ => false

/-- The faults of computations are the program's own. -/
theorem isOrdinary_of_isComputed {code : Code} (h : code.isComputed = true) :
    code.isOrdinary = true := by
  cases code <;> first | rfl | cases h

end Code

/-- A fault of a computation, in which no line and no columns have been noted. -/
def Fault.Computed (fault : Fault) : Prop :=
  (fault.code.isComputed && fault.line.isNone && fault.column == Span.none) = true

/-- A fault of a computation has a code of one. -/
theorem Fault.Computed.isComputed {fault : Fault} (h : fault.Computed) :
    fault.code.isComputed = true := by
  unfold Computed at h
  rw [Bool.and_eq_true, Bool.and_eq_true] at h
  exact h.1.1

/-- A fault of a computation is an ordinary one. -/
theorem Fault.Computed.ordinary {fault : Fault} (h : fault.Computed) : fault.Ordinary := by
  have code := Code.isOrdinary_of_isComputed h.isComputed
  unfold Computed at h
  unfold Ordinary
  rw [Bool.and_eq_true, Bool.and_eq_true] at h ⊢
  exact ⟨⟨code, h.1.2⟩, h.2⟩

section Computes

variable {α β : Type}

/-- A result that is a value with a property, or else a fault of a computation. -/
abbrev Computes (P : α → Prop) (result : Except Fault α) : Prop :=
  Settles Fault.Computed P result

/-- Nothing is asked of the value of a computation. -/
abbrev ComputesAny (result : Except Fault α) : Prop :=
  Computes (fun _ => True) result

/-- The faults of computations are ordinary ones. -/
theorem Computes.settles {P : α → Prop} {result : Except Fault α} (h : Computes P result) :
    Settles Fault.Ordinary P result :=
  h.mono fun _ computed => computed.ordinary

/-- A computation as an effect. -/
theorem Effect.Obeys.compute {I : Session → Prop} {R : Session → Session → Prop}
    [IsPreorder Session R] {P : α → Prop} {result : Except Fault α} (h : Computes P result) :
    Obeys I R P (Effect.ofExcept result) :=
  Ensures.ofExcept h.settles

end Computes

namespace Value

/-- A value is refused for a name exactly if it does not fit it. -/
theorem computes_check (value : Value) (name : Name) :
    Computes (fun _ => value.fits name = true) (value.check name) := by
  unfold check
  split
  · assumption
  · rfl

/-- Taking a value for a number is a computation. -/
theorem computes_toNumber (value : Value) : ComputesAny value.toNumber := by
  cases value with
  | number x => trivial
  | string s => rfl

/-- Making a number a machine word is a computation. -/
theorem computes_toWord (x : Float) : ComputesAny (toWord x) := by
  unfold toWord
  dsimp only
  split
  · trivial
  · rfl

/-- A negation is a computation. -/
theorem computes_negate (value : Value) : ComputesAny value.negate := by
  cases value with
  | number x => trivial
  | string s => rfl

/-- `NOT` is a computation. -/
theorem computes_not (value : Value) : ComputesAny value.not := by
  cases value with
  | number x => exact (computes_toWord x).bind fun _ _ => trivial
  | string s => rfl

end Value

namespace BinaryOp

/-- An arithmetic operation fails where its operands are no numbers, or where it fails on them. -/
theorem computes_arithmetic {f : Float → Float → Except Fault Value}
    (h : ∀ x y, ComputesAny (f x y)) (left right : Value) :
    ComputesAny (arithmetic f left right) := by
  unfold arithmetic
  split
  · exact h _ _
  · rfl

/-- A comparison of two values is a computation. -/
theorem computes_relation (numbers : Float → Float → Bool) (strings : String → String → Bool)
    (left right : Value) : ComputesAny (relation numbers strings left right) := by
  unfold relation
  split
  · trivial
  · trivial
  · rfl

/-- An operation on machine words is a computation. -/
theorem computes_bitwise (f : Int64 → Int64 → Int64) (x y : Float) :
    ComputesAny (bitwise f x y) :=
  (Value.computes_toWord x).bind fun _ _ => (Value.computes_toWord y).bind fun _ _ => trivial

/-- A sum of numbers or texts is a computation. -/
theorem computes_sum (left right : Value) : ComputesAny (sum left right) := by
  unfold sum
  split
  · trivial
  · trivial
  · rfl

/-- A division is a computation. -/
theorem computes_quotient (x y : Float) : ComputesAny (quotient x y) := by
  unfold quotient
  split
  · rfl
  · trivial

/-- All operators fail with ordinary faults. -/
theorem computes_apply (op : BinaryOp) (left right : Value) :
    ComputesAny (op.apply left right) := by
  cases op with
  | power | multiply | subtract =>
      apply computes_arithmetic
      intro x y
      trivial
  | divide => exact computes_arithmetic computes_quotient left right
  | add => exact computes_sum left right
  | equal | notEqual | less | lessEqual | greater | greaterEqual =>
      exact computes_relation _ _ left right
  | and | or => exact computes_arithmetic (computes_bitwise _) left right

end BinaryOp

namespace Grid

/-- Checking a subscript against its bound is a computation. -/
theorem computes_index (name : Name) (bound : Nat) (x : Float) :
    ComputesAny (index name bound x) := by
  unfold index
  dsimp only
  split
  · rfl
  · trivial

/-- Turning subscripts into an offset is a computation. -/
theorem computes_offsetFrom (name : Name) (start : Nat) (bounds : List Nat)
    (subscripts : List Value) :
    ComputesAny (offsetFrom name start bounds subscripts) := by
  induction bounds generalizing start subscripts with
  | nil => trivial
  | cons bound bounds ih =>
      cases subscripts with
      | nil => trivial
      | cons subscript subscripts =>
          exact (Value.computes_toNumber subscript).bind fun x _ =>
            (computes_index name bound x).bind fun i _ => ih _ subscripts

/-- Finding an element of a grid is a computation. -/
theorem computes_offset (name : Name) (grid : Grid) (subscripts : List Value) :
    ComputesAny (grid.offset name subscripts) := by
  unfold offset
  split
  · exact computes_offsetFrom name 0 grid.bounds subscripts
  · rfl

/-- Checking the bound of a dimension is a computation. -/
theorem computes_bound (name : Name) (x : Float) : ComputesAny (bound name x) := by
  unfold bound
  split
  · rfl
  · trivial

/-- Besides a bound that is wrong, an array may be too large. -/
theorem settles_shapeFrom (name : Name) (shape : Shape) (values : List Value) :
    Settles Fault.Ordinary (fun _ => True) (shapeFrom name shape values) := by
  induction values generalizing shape with
  | nil => trivial
  | cons value values ih =>
      refine (Value.computes_toNumber value).settles.bind fun x _ => ?_
      refine (computes_bound name x).settles.bind fun b _ => ?_
      split
      · exact ih _
      · rfl

end Grid

namespace Memory

/-- Assigning to a variable yields the memory with the value in it, if the value fits. -/
theorem computes_store (memory : Memory) (name : Name) (value : Value) :
    Computes (fun m => m = memory.put name value ∧ value.fits name = true)
      (memory.store name value) :=
  (value.computes_check name).bind fun _ fits => ⟨rfl, fits⟩

/-- Finding an array by its name is a computation. -/
theorem computes_array (memory : Memory) (name : Name) : ComputesAny (memory.array name) := by
  unfold array
  split
  · trivial
  · rfl

/-- Declaring an array changes no variable. -/
theorem settles_dimension (memory : Memory) (name : Name) (bounds : List Value) :
    Settles Fault.Ordinary (fun m => m.scalars = memory.scalars)
      (memory.dimension name bounds) := by
  unfold dimension
  split
  · rfl
  · exact (Grid.settles_shapeFrom name Shape.point bounds).bind fun _ _ => rfl

/-- Fetching an element is a computation. -/
theorem computes_fetchElement (memory : Memory) (name : Name) (subscripts : List Value) :
    ComputesAny (memory.fetchElement name subscripts) :=
  (memory.computes_array name).bind fun grid _ =>
    (grid.computes_offset name subscripts).bind fun _ _ => trivial

/-- Finding the element that a value is assigned to is a computation. -/
theorem computes_target (memory : Memory) (name : Name) (subscripts : List Value) (value : Value) :
    ComputesAny (memory.target name subscripts value) :=
  (value.computes_check name).bind fun _ _ => (memory.computes_array name).bind fun grid _ =>
    grid.computes_offset name subscripts

end Memory

namespace Builtin

/-- Taking an argument for a number is a computation. -/
theorem computes_numberAt (b : Builtin) (arguments : List Value) (index : Nat) :
    ComputesAny (b.numberAt arguments index) := by
  unfold numberAt
  split
  · trivial
  · rfl
  · rfl

/-- Taking an argument for a text is a computation. -/
theorem computes_textAt (b : Builtin) (arguments : List Value) (index : Nat) :
    ComputesAny (b.textAt arguments index) := by
  unfold textAt
  split
  · trivial
  · rfl
  · rfl

/-- Taking an argument for a count is a computation. -/
theorem computes_countAt (b : Builtin) (arguments : List Value) (index : Nat) :
    ComputesAny (b.countAt arguments index) := by
  refine (b.computes_numberAt arguments index).bind fun x _ => ?_
  dsimp only
  split
  · rfl
  · trivial

/-- A function of one number is a computation. -/
theorem computes_numeric (b : Builtin) (arguments : List Value) (f : Float → Float) :
    ComputesAny (b.numeric arguments f) :=
  (b.computes_numberAt arguments 0).bind fun _ _ => trivial

/-- A function of one number that is not defined everywhere is a computation. -/
theorem computes_numericUnless (b : Builtin) (arguments : List Value) (undefined : Float → Bool)
    (f : Float → Float) : ComputesAny (b.numericUnless arguments undefined f) := by
  refine (b.computes_numberAt arguments 0).bind fun x _ => ?_
  split
  · rfl
  · trivial

/-- All built-in functions other than `RND` fail with ordinary faults. -/
theorem computes_compute (clock : Clock) (b : Builtin) (arguments : List Value) :
    ComputesAny (compute clock b arguments) := by
  cases b with
  | ABS | ATN | COS | EXP | INT | SGN | SIN | TAN => exact computes_numeric _ arguments _
  | LOG | SQR => exact computes_numericUnless _ arguments _ _
  | DATE | TIME => trivial
  | RND | TAB => rfl
  | ASC =>
      refine (computes_textAt _ arguments 0).bind fun cs _ => ?_
      split
      · trivial
      · rfl
  | CHR =>
      refine (computes_numberAt _ arguments 0).bind fun x _ => ?_
      split
      · trivial
      · rfl
  | LEFT | RIGHT =>
      exact (computes_textAt _ arguments 0).bind fun s _ =>
        (computes_countAt _ arguments 1).bind fun _ _ => trivial
  | LEN | VAL => exact (computes_textAt _ arguments 0).bind fun _ _ => trivial
  | MID =>
      refine (computes_textAt _ arguments 0).bind fun s _ =>
        (computes_countAt _ arguments 1).bind fun position _ => ?_
      split
      · rfl
      · split
        · exact (computes_countAt _ arguments 2).bind fun _ _ => trivial
        · trivial
  | SPC =>
      refine (computes_countAt _ arguments 0).bind fun count _ => ?_
      split
      · rfl
      · trivial
  | STR => exact (computes_numberAt _ arguments 0).bind fun _ _ => trivial

/-- All built-in functions fail with ordinary faults. -/
theorem computes_call (clock : Clock) (dice : Dice) (b : Builtin) (arguments : List Value) :
    ComputesAny (b.call clock dice arguments) := by
  unfold call
  dsimp only
  split
  · rfl
  · split
    · refine Settles.bind (P := fun _ => True) ?_ fun _ _ => trivial
      unfold rollArgument
      split
      · trivial
      · exact computes_numberAt _ arguments 0
    · exact (computes_compute clock b arguments).bind fun _ _ => trivial

end Builtin

namespace BoundedStack

variable {α : Type}

/-- A stack that is pushed to has the entry on top, or there is no room. -/
theorem settles_push (stack : BoundedStack α) (entry : α) :
    Settles Fault.Ordinary
      (fun grown => grown.limit = stack.limit ∧ grown.entries = entry :: stack.entries)
      (stack.push entry) := by
  unfold push
  split
  · exact ⟨rfl, rfl⟩
  · rfl

end BoundedStack

namespace Session

/-- Arguments that are accepted fit the parameters they stand for. -/
theorem computes_checkArguments (names : List Name) (values : List Value) :
    Computes (fun _ => ∀ pair ∈ names.zip values, pair.2.fits pair.1 = true)
      (checkArguments names values) := by
  induction names generalizing values with
  | nil => simp [checkArguments, Settles]
  | cons name names ih =>
      cases values with
      | nil => simp [checkArguments, Settles]
      | cons value values =>
          refine (value.computes_check name).bind fun _ fits => (ih values).imp fun _ rest => ?_
          intro pair inside
          rcases List.mem_cons.mp inside with rfl | inside
          · exact fits
          · exact rest pair inside

/-- Turning a field of a reply into a value is a computation. -/
theorem computes_fieldValue (i : Ident) (field : ReplyField) :
    ComputesAny (fieldValue i field) := by
  unfold fieldValue
  split
  · trivial
  · split
    · rfl
    · split
      · trivial
      · rfl

/-- Turning the fields of a reply into values is a computation. -/
theorem computes_fieldValues (is : List Ident) (fields : List ReplyField) :
    ComputesAny (fieldValues is fields) := by
  induction is generalizing fields with
  | nil => trivial
  | cons i is ih =>
      cases fields with
      | nil => trivial
      | cons field fields =>
          exact (computes_fieldValue i field).bind fun _ _ => (ih fields).bind fun _ _ => trivial

/-- Turning a whole reply into values is a computation. -/
theorem computes_replyValues (is : List Ident) (fields : List ReplyField) :
    ComputesAny (replyValues is fields) := by
  unfold replyValues
  split
  · rfl
  · exact computes_fieldValues is fields

/-- Turning a data item into a value is a computation. -/
theorem computes_datumValue (i : Ident) (datum : Datum) :
    ComputesAny (datumValue i datum) := by
  unfold datumValue
  split
  · split
    · trivial
    · rfl
  · split
    · trivial
    · split
      · trivial
      · rfl

end Session

end NumberedBasic
