import NumberedBasic.Value
import Std.Data.TreeMap

/-!
# Variables and arrays

Variables come into being when they are first used. Arrays have to be declared, and each of their
dimensions counts from zero up to its bound. A variable and an array may have the same name.
-/

set_option autoImplicit false

namespace NumberedBasic

/-- The most elements an array may have: two to the power of 24. -/
def maxElements : Nat := 16777216

/-- The number of elements of an array with the given bounds. -/
def extent (bounds : List Nat) : Nat :=
  bounds.foldr (fun bound total => (bound + 1) * total) 1

/-- One more subscript multiplies the number of elements by the number of its values. -/
theorem extent_concat (bounds : List Nat) (bound : Nat) :
    extent (bounds ++ [bound]) = extent bounds * (bound + 1) := by
  induction bounds with
  | nil => exact Nat.mul_comm _ _
  | cons b bounds ih =>
    show (b + 1) * extent (bounds ++ [bound]) = (b + 1) * extent bounds * (bound + 1)
    rw [ih, Nat.mul_assoc]

/-- The bound of each dimension of an array, and the number of its elements. -/
structure Shape where
  bounds : List Nat
  size : Nat
  sized : size = extent bounds
  small : size ≤ maxElements

namespace Shape

/-- The shape without dimensions. -/
def point : Shape :=
  ⟨[], 1, rfl, by decide⟩

/-- A shape with one more dimension. -/
def extend (shape : Shape) (bound : Nat) (small : shape.size * (bound + 1) ≤ maxElements) : Shape :=
  ⟨shape.bounds ++ [bound], shape.size * (bound + 1), by rw [extent_concat, shape.sized], small⟩

end Shape

/-- An array: its shape, and the elements with the last subscript changing fastest. -/
structure Grid extends Shape where
  cells : Array Value
  full : cells.size = size

namespace Grid

/-- An array with the given shape and all elements alike. -/
def filled (shape : Shape) (value : Value) : Grid :=
  ⟨shape, Array.replicate shape.size value, Array.size_replicate⟩

/-- The array with one element replaced. -/
def set (grid : Grid) (offset : Nat) (value : Value) : Grid :=
  ⟨grid.toShape, grid.cells.setIfInBounds offset value, by
    rw [Array.size_setIfInBounds, grid.full]⟩

/-- The whole-number index a subscript stands for: its integer part. -/
def index (name : Name) (bound : Nat) (x : Float) : Except Fault Nat :=
  let i := Number.truncated x
  if i < 0.0 ∨ i > Float.ofNat bound then
    .error
      { code := .subscriptOutOfRange
        detail := name ++ "(" ++ Number.format i ++ ") EXCEEDS BOUND " ++ toString bound }
  else .ok (Number.unsignedWord i)

/-- Goes on computing an offset: `start` is that of the dimensions before. -/
def offsetFrom (name : Name) (start : Nat) : List Nat → List Value → Except Fault Nat
  | bound :: bounds, subscript :: subscripts => do
    let i ← index name bound (← subscript.toNumber)
    offsetFrom name (start * (bound + 1) + i) bounds subscripts
  | _, _ => .ok start

/-- The place of an element among the elements of its array. -/
def offset (name : Name) (grid : Grid) (subscripts : List Value) : Except Fault Nat :=
  if subscripts.length = grid.bounds.length then offsetFrom name 0 grid.bounds subscripts
  else .error
    { code := .subscriptOutOfRange
      detail := name ++ " HAS " ++ toString grid.bounds.length ++ " DIMENSION(S)" }

/-- The bound a declaration gives for a dimension: a whole number that is not zero. -/
def bound (name : Name) (x : Float) : Except Fault Nat :=
  if Number.fraction x != 0.0 ∨ x < 1.0 ∨ x > Float.ofNat maxElements then
    .error
      { code := .illegalFunctionCall
        detail := "INVALID DIMENSION " ++ name ++ "(" ++ Number.format x ++ ")" }
  else .ok (Number.unsignedWord x)

/-- Adds the dimensions that a declaration gives to a shape. -/
def shapeFrom (name : Name) (shape : Shape) : List Value → Except Fault Shape
  | [] => .ok shape
  | value :: values => do
    let b ← bound name (← value.toNumber)
    if small : shape.size * (b + 1) ≤ maxElements then shapeFrom name (shape.extend b small) values
    else .error { code := .outOfMemory, detail := name }

end Grid

/-- The variables that have been assigned to, and the arrays that have been declared. -/
structure Memory where
  scalars : Std.TreeMap Name Value
  arrays : Std.TreeMap Name Grid

namespace Memory

/-- The memory without variables and arrays. -/
def empty : Memory := ⟨{}, {}⟩

/-- The value of a variable. -/
def fetch (memory : Memory) (name : Name) : Value :=
  memory.scalars[name]?.getD (Value.default name)

/-- Puts a value into a variable, whatever its type. -/
def put (memory : Memory) (name : Name) (value : Value) : Memory :=
  { memory with scalars := memory.scalars.insert name value }

/-- Assigns to a variable. -/
def store (memory : Memory) (name : Name) (value : Value) : Except Fault Memory := do
  value.check name
  return memory.put name value

/-- The array with a name. -/
def array (memory : Memory) (name : Name) : Except Fault Grid :=
  match memory.arrays[name]? with
  | some grid => .ok grid
  | none => .error { code := .undimensionedArray, detail := name }

/-- Declares an array. -/
def dimension (memory : Memory) (name : Name) (bounds : List Value) : Except Fault Memory := do
  if memory.arrays.contains name then .error { code := .redimensionedArray, detail := name }
  else
    let shape ← Grid.shapeFrom name Shape.point bounds
    let grid := Grid.filled shape (Value.default name)
    return { memory with arrays := memory.arrays.insert name grid }

/-- The value of an array element. -/
def fetchElement (memory : Memory) (name : Name) (subscripts : List Value) :
    Except Fault Value := do
  let grid ← memory.array name
  let offset ← grid.offset name subscripts
  return grid.cells.getD offset (Value.default name)

/-- The place of the element that a value is assigned to. A value of the wrong type has none. -/
def target (memory : Memory) (name : Name) (subscripts : List Value) (value : Value) :
    Except Fault Nat := do
  value.check name
  let grid ← memory.array name
  grid.offset name subscripts

/-- Puts a value into the element of an array at a place, whatever its type. -/
def putElement (memory : Memory) (name : Name) (offset : Nat) (value : Value) : Memory :=
  { memory with arrays := memory.arrays.modify name (·.set offset value) }

/-- Assigns to an array element. -/
def storeElement (memory : Memory) (name : Name) (subscripts : List Value) (value : Value) :
    Except Fault Memory := do
  let offset ← memory.target name subscripts value
  return memory.putElement name offset value

end Memory

end NumberedBasic
